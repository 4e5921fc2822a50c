import ModuleLink.Classifier

/-! # The fixed header in front of every envelope

Seven 32-bit words in network order: the lengths of the two segments, the parent reference, the
intent, the classifier, the dispatch reference and the message reference. -/
namespace ModuleLink

/-- The reference of nothing. -/
def noRef : Int32 := -1
def unspecifiedIntent : Int32 := -1
/-- The intent that marks an answer to a query. -/
def queryReplyIntent : Int32 := -4

structure Header where
  classTotal : UInt32
  messageTotal : UInt32
  parentRef : Int32
  intent : Int32
  classifier : UInt32
  dispatchRef : Int32
  messageRef : Int32
  deriving DecidableEq, Repr

namespace Header

def size : Nat := 28

def words (h : Header) : List UInt32 :=
  [h.classTotal, h.messageTotal, h.parentRef.toUInt32, h.intent.toUInt32, h.classifier,
    h.dispatchRef.toUInt32, h.messageRef.toUInt32]

def encode (h : Header) : Bytes := h.words.flatMap bigEndian

def wordAt (bytes : Bytes) (i : Nat) : UInt32 :=
  wordOfBytes (bytes.getD i 0) (bytes.getD (i + 1) 0) (bytes.getD (i + 2) 0) (bytes.getD (i + 3) 0)

/-- The header in the first 28 bytes. -/
def decode (bytes : Bytes) : Header where
  classTotal := wordAt bytes 0
  messageTotal := wordAt bytes 4
  parentRef := (wordAt bytes 8).toInt32
  intent := (wordAt bytes 12).toInt32
  classifier := wordAt bytes 16
  dispatchRef := (wordAt bytes 20).toInt32
  messageRef := (wordAt bytes 24).toInt32

/-- Length of the whole envelope. -/
def wireLength (h : Header) : Nat := size + h.classTotal.toNat + h.messageTotal.toNat

end Header

end ModuleLink
