import ModuleLink.ByteOrders
import ModuleLink.TransportErrors

/-! # What can go wrong with a segment or an envelope -/
namespace ModuleLink

inductive FormatError
  | misaligned (length unit : Nat)
  | truncated (needed available : Nat)
  | invalidText
  | sizeMismatch (formatter : String) (expected actual : Nat)
  | unsupportedByteOrder (order : ByteOrder)
  deriving DecidableEq, Repr

namespace FormatError

def label : FormatError → String
  | misaligned .. => "Misaligned"
  | truncated .. => "Truncated"
  | invalidText => "InvalidText"
  | sizeMismatch .. => "SizeMismatch"
  | unsupportedByteOrder _ => "UnsupportedByteOrder"

def message : FormatError → String
  | misaligned length unit => s!"{length} bytes is not a multiple of the {unit}-byte element size"
  | truncated needed available => s!"truncated data: need {needed} bytes, have {available}"
  | invalidText => "text is not valid UTF-8"
  | sizeMismatch formatter expected actual =>
    s!"formatter {formatter} produced {actual} bytes but sized {expected}"
  | unsupportedByteOrder order => s!"cannot decode data written in {order.label} byte order"

end FormatError

/-- The two variable parts of an envelope. -/
inductive Segment | classData | payload
  deriving DecidableEq, Repr

def Segment.name : Segment → String
  | classData => "class"
  | payload => "payload"

inductive FrameError
  | unsupportedAlignment (code : UInt8)
  | segmentTooLarge (segment : Segment) (size limit : Nat)
  | format (cause : FormatError)
  | transport (cause : TransportError)
  deriving DecidableEq, Repr

namespace FrameError

/-- The kind of error, after the layer it comes from. -/
def label : FrameError → String
  | unsupportedAlignment _ => "UnsupportedAlignment"
  | segmentTooLarge .. => "SegmentTooLarge"
  | format cause => "Format." ++ cause.label
  | transport cause => "Transport." ++ cause.label

def message : FrameError → String
  | unsupportedAlignment code =>
    s!"unsupported alignment 0x{byteHex code} (only packed data is accepted)"
  | segmentTooLarge segment size limit =>
    s!"{segment.name} segment too large ({size} bytes, max {limit})"
  | format cause => s!"format error: {cause.message}"
  | transport cause => s!"transport error: {cause.message}"

def isDisconnect : FrameError → Bool
  | transport cause => cause.isDisconnect
  | _ => false

def isTimeout : FrameError → Bool
  | transport cause => cause.isTimeout
  | _ => false

def isBrokenPipe : FrameError → Bool
  | transport cause => cause.isBrokenPipe
  | _ => false

end FrameError

end ModuleLink
