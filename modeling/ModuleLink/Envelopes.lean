import ModuleLink.EnvelopeHeader
import ModuleLink.Formatters

/-! # Envelopes

One message in transit: a header, a class segment and a payload. The header's totals are the
lengths of the segments, and what a module builds or accepts is packed. -/
namespace ModuleLink

structure Envelope where
  header : Header
  classData : Bytes
  payload : Bytes
  deriving DecidableEq, Repr

/-- A value and the formatter that writes it. -/
structure Content where
  formatter : Formatter
  value : Bytes

/-- What an outgoing envelope is made from. -/
structure Draft where
  classId : UInt16
  parentRef : Int32 := noRef
  intent : Int32 := unspecifiedIntent
  dispatchRef : Int32 := noRef
  messageRef : Int32 := noRef
  classData : Option Content := none
  payload : Option Content := none

def checkSegment (segment : Segment) (size limit : Nat) : Except FrameError Unit :=
  if limit < size then .error (.segmentTooLarge segment size limit) else .ok ()

/-- The bytes of a segment; a formatter has to write exactly as many as it announced. -/
def Content.encode (segment : Segment) (c : Content) : Except FrameError Bytes := do
  let size ← (c.formatter.wireSize c.value).mapError .format
  checkSegment segment size Formatter.maxLength
  let wire ← (c.formatter.encode c.value).mapError .format
  if wire.length = size then return wire
  else throw (.format (.sizeMismatch c.formatter.name size wire.length))

def encodeSegment (segment : Segment) : Option Content → Except FrameError Bytes
  | none => .ok []
  | some c => c.encode segment

def Draft.build (d : Draft) : Except FrameError Envelope := do
  let classData ← encodeSegment .classData d.classData
  let payload ← encodeSegment .payload d.payload
  return {
    header := {
      classTotal := .ofNat classData.length
      messageTotal := .ofNat payload.length
      parentRef := d.parentRef
      intent := d.intent
      classifier := (Classifier.outgoing d.classId).pack
      dispatchRef := d.dispatchRef
      messageRef := d.messageRef }
    classData
    payload }

/-- Fails unless the data is packed. -/
def Classifier.ensurePacked (c : Classifier) : Except FrameError Unit :=
  match c.alignment with
  | .packed => .ok ()
  | a => .error (.unsupportedAlignment a.code)

/-- A segment's value, or none for an empty segment. Flat data in the host's order is the value
already. -/
def decodeSegment (formatter : Formatter) (wire : Bytes) (order : ByteOrder) (c : Classifier) :
    Except FrameError (Option Bytes) := do
  if wire = [] then return none
  c.ensurePacked
  if formatter.flat ∧ order = .host then return some wire
  let value ← (formatter.decode wire order).mapError .format
  return some value

namespace Envelope

def classifier (m : Envelope) : Classifier := .unpack m.header.classifier
def classId (m : Envelope) : UInt16 := m.classifier.classId
def intent (m : Envelope) : Int32 := m.header.intent
def messageRef (m : Envelope) : Int32 := m.header.messageRef
def hasPayload (m : Envelope) : Bool := 0 < m.header.messageTotal
def wireLength (m : Envelope) : Nat := m.header.wireLength

def withIntent (m : Envelope) (intent : Int32) : Envelope :=
  { m with header := { m.header with intent } }

def decodePayload (m : Envelope) (formatter : Formatter) : Except FrameError (Option Bytes) :=
  decodeSegment formatter m.payload m.classifier.dataOrder m.classifier

def decodeClass (m : Envelope) (formatter : Formatter) : Except FrameError (Option Bytes) :=
  decodeSegment formatter m.classData m.classifier.classOrder m.classifier

/-- The same envelope with another class segment, which is written in the host's order. -/
def replaceClass (m : Envelope) (content : Content) : Except FrameError Envelope := do
  let classData ← content.encode .classData
  return {
    header := { m.header with
      classTotal := .ofNat classData.length
      classifier := { m.classifier with classOrder := .host }.pack }
    classData
    payload := m.payload }

/-- The parts that one gathered write sends; an empty segment is left out. -/
def segments (m : Envelope) : List Bytes :=
  m.header.encode :: [m.classData, m.payload].filter (· ≠ [])

end Envelope

end ModuleLink
