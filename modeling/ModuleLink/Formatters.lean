import ModuleLink.FrameErrors
import ModuleLink.TextBytes

/-! # Formatters

A formatter turns a value's bytes into the packed bytes of a segment and back. Envelopes call it
at their boundary only and never look inside a segment. -/
namespace ModuleLink

structure Formatter where
  name : String
  /-- The packed bytes are the value's own bytes. -/
  flat : Bool
  wireSize : Bytes → Except FormatError Nat
  encode : Bytes → Except FormatError Bytes
  decode : Bytes → ByteOrder → Except FormatError Bytes

namespace Formatter

/-- Largest length that a 32-bit length field can hold. -/
def maxLength : Nat := 4294967295

/-- Bytes without a structure. -/
def raw : Formatter where
  name := "opaque"
  flat := true
  wireSize value := .ok value.length
  encode value := .ok value
  decode wire _ := .ok wire

def checkWords (bytes : Bytes) : Except FormatError Unit :=
  if bytes.length % 4 = 0 then .ok () else .error (.misaligned bytes.length 4)

/-- Whole words read in one order and laid out in the host's. -/
def toHostWords (order : ByteOrder) : Bytes → Except FormatError Bytes
  | a :: b :: c :: d :: rest =>
    match order.word? a b c d with
    | none => .error (.unsupportedByteOrder order)
    | some w => (littleEndian w ++ ·) <$> toHostWords order rest
  | _ => .ok []

/-- Packed 32-bit integers in the machine's own layout. -/
def int32Array : Formatter where
  name := "int32[]"
  flat := true
  wireSize value := do
    checkWords value
    return value.length
  encode value := do
    checkWords value
    return value
  decode wire order := do
    checkWords wire
    if order = .host then return wire else toHostWords order wire

/-- UTF-8 text behind a 32-bit length. -/
def text : Formatter where
  name := "string"
  flat := false
  wireSize value := .ok (4 + value.length)
  encode value :=
    if !isText value then .error .invalidText
    else if maxLength < value.length then .error (.truncated value.length maxLength)
    else .ok (littleEndian (.ofNat value.length) ++ value)
  decode wire order :=
    match wire with
    | a :: b :: c :: d :: rest =>
      match order.word? a b c d with
      | none => .error (.unsupportedByteOrder order)
      | some length =>
        if rest.length < length.toNat then .error (.truncated (4 + length.toNat) wire.length)
        else
          let value := rest.take length.toNat
          if isText value then .ok value else .error .invalidText
    | _ => .error (.truncated 4 wire.length)

/-- A formatter that announces one byte more than it writes. -/
def miscounting : Formatter where
  name := "lying"
  flat := false
  wireSize value := .ok (value.length + 1)
  encode value := .ok value
  decode wire _ := .ok wire

end Formatter

end ModuleLink
