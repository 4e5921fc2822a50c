import ModuleLink.ByteOrders

/-! # The classifier word

One 32-bit word names an envelope's class and the layout its sender used: the class id in the low
half, then eight bits of alignment, four of data order and four of class order. -/
namespace ModuleLink

/-- How fields were padded. Only packed data is accepted. -/
inductive Alignment
  | packed | word | longest | int | macPpc | arm | other (code : UInt8)
  deriving DecidableEq, Repr

namespace Alignment

def code : Alignment → UInt8
  | packed => 0x00
  | word => 0x01
  | longest => 0x02
  | int => 0x04
  | macPpc => 0x10
  | arm => 0x20
  | other c => c

def ofCode (c : UInt8) : Alignment :=
  if c = 0x00 then .packed
  else if c = 0x01 then .word
  else if c = 0x02 then .longest
  else if c = 0x04 then .int
  else if c = 0x10 then .macPpc
  else if c = 0x20 then .arm
  else .other c

/-- The natural layout of the machines that modules run on. -/
def host : Alignment := .longest

def label : Alignment → String
  | packed => "Packed"
  | word => "Word"
  | longest => "Longest"
  | int => "Int"
  | macPpc => "MacPpc"
  | arm => "Arm"
  | other c => "Other(" ++ toString c ++ ")"

end Alignment

structure Classifier where
  classId : UInt16
  dataOrder : ByteOrder
  classOrder : ByteOrder
  alignment : Alignment
  deriving DecidableEq, Repr

namespace Classifier

/-- The layout of everything that a module sends. -/
def outgoing (classId : UInt16) : Classifier := ⟨classId, .host, .host, .packed⟩

def pack (c : Classifier) : UInt32 :=
  c.classId.toUInt32 ||| c.alignment.code.toUInt32 <<< 16 |||
    c.dataOrder.code <<< 24 ||| c.classOrder.code <<< 28

def unpack (w : UInt32) : Classifier where
  classId := w.toUInt16
  alignment := .ofCode (w >>> 16).toUInt8
  dataOrder := .ofCode (w >>> 24 &&& 0xf)
  classOrder := .ofCode (w >>> 28)

end Classifier

end ModuleLink
