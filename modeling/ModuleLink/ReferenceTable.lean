import ModuleLink.PeerErrors

/-! # Table of references

Entries live in numbered slots. A handle names a slot and its generation; releasing an entry moves
the slot to its next generation, so an old handle never reaches what the slot holds later. The
slot released last is used first. -/
namespace ModuleLink

structure Slot (α : Type) where
  generation : UInt32
  entry : Option α
  deriving DecidableEq, Repr

structure ReferenceTable (α : Type) where
  slots : List (Slot α) := []
  vacant : List Nat := []
  live : Nat := 0
  deriving Repr

namespace ReferenceTable

variable {α : Type}

def capacity (t : ReferenceTable α) : Nat := t.slots.length

def get? (t : ReferenceTable α) (h : Handle) : Option α :=
  match t.slots[h.index]? with
  | some slot => if slot.generation = h.generation then slot.entry else none
  | none => none

def get (t : ReferenceTable α) (h : Handle) : Except PeerError α :=
  (t.get? h).elim (.error (.staleReference h)) .ok

def acquire (t : ReferenceTable α) (entry : α) : Handle × ReferenceTable α :=
  match t.vacant with
  | index :: vacant =>
    let generation := (t.slots[index]?.map Slot.generation).getD 0
    (⟨index, generation⟩,
      { slots := t.slots.set index ⟨generation, some entry⟩, vacant, live := t.live + 1 })
  | [] =>
    (⟨t.slots.length, 0⟩,
      { slots := t.slots ++ [⟨0, some entry⟩], vacant := [], live := t.live + 1 })

def release (t : ReferenceTable α) (h : Handle) : Except PeerError (α × ReferenceTable α) := do
  let entry ← t.get h
  return (entry,
    { slots := t.slots.set h.index ⟨h.generation + 1, none⟩
      vacant := h.index :: t.vacant
      live := t.live - 1 })

def modify (t : ReferenceTable α) (h : Handle) (edit : α → α) :
    Except PeerError (ReferenceTable α) := do
  let entry ← t.get h
  return { t with slots := t.slots.set h.index ⟨h.generation, some (edit entry)⟩ }

end ReferenceTable

end ModuleLink
