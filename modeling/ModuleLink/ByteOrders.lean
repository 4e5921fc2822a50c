/-! # Byte orders of 32-bit words -/
namespace ModuleLink

/-- Contents of segments, headers and streams. -/
abbrev Bytes := List UInt8

/-- The order in which a sender laid out its words. -/
inductive ByteOrder | unknown | big | little | pdp
  deriving DecidableEq, Repr

namespace ByteOrder

/-- Modules run on little-endian machines. -/
def host : ByteOrder := .little

def code : ByteOrder → UInt32
  | unknown => 0
  | big => 1
  | little => 2
  | pdp => 3

def ofCode (code : UInt32) : ByteOrder :=
  if code = 1 then .big else if code = 2 then .little else if code = 3 then .pdp else .unknown

def name : ByteOrder → String
  | unknown => "unknown"
  | big => "big"
  | little => "little"
  | pdp => "pdp"

def label : ByteOrder → String
  | unknown => "Unknown"
  | big => "Big"
  | little => "Little"
  | pdp => "Pdp"

end ByteOrder

/-- The word whose most significant byte is the first argument. -/
def wordOfBytes (a b c d : UInt8) : UInt32 :=
  a.toUInt32 <<< 24 ||| b.toUInt32 <<< 16 ||| c.toUInt32 <<< 8 ||| d.toUInt32

def bigEndian (w : UInt32) : Bytes :=
  [(w >>> 24).toUInt8, (w >>> 16).toUInt8, (w >>> 8).toUInt8, w.toUInt8]

def littleEndian (w : UInt32) : Bytes :=
  [w.toUInt8, (w >>> 8).toUInt8, (w >>> 16).toUInt8, (w >>> 24).toUInt8]

/-- The word that four bytes spell in an order; the middle order puts the high half first and
each half's low byte first. -/
def ByteOrder.word? (order : ByteOrder) (a b c d : UInt8) : Option UInt32 :=
  match order with
  | .big => some (wordOfBytes a b c d)
  | .little => some (wordOfBytes d c b a)
  | .pdp => some (wordOfBytes b a d c)
  | .unknown => none

/-- The four bytes of a word in an order a receiver can read. -/
def ByteOrder.spell? (order : ByteOrder) (w : UInt32) : Option Bytes :=
  match order with
  | .big => some (bigEndian w)
  | .little => some (littleEndian w)
  | .pdp => some [(w >>> 16).toUInt8, (w >>> 24).toUInt8, w.toUInt8, (w >>> 8).toUInt8]
  | .unknown => none

end ModuleLink
