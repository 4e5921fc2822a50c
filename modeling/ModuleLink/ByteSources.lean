import ModuleLink.ScriptedCalls
import ModuleLink.TransportErrors

/-! # Reading whole buffers

Reads may be short or interrupted; the loops here go on until the buffers are full, the stream
ends, the deadline passes or the stream fails, and say how many bytes they took. -/
namespace ModuleLink

/-- What a read meets when no byte is left: the end of the stream, or silence until the deadline. -/
inductive Exhaustion | ended | silent
  deriving DecidableEq, Repr

structure Source where
  unread : Bytes
  turns : List Turn := []
  gathers : Bool := true
  exhaustion : Exhaustion := .ended
  calls : List Call := []
  deriving DecidableEq, Repr

/-- The answer to one read. No bytes stand for the end of the stream. -/
inductive ReadAnswer
  | bytes (got : Bytes)
  | failed (cause : SystemError)
  deriving DecidableEq, Repr

/-- Bytes put into the buffers, and why the loop stopped. -/
structure Filled where
  got : Bytes
  result : Except TransportError Unit

namespace Source

def hand (s : Source) (most : Nat) : ReadAnswer × Source :=
  if s.exhaustion = .silent ∧ s.unread = [] ∧ most ≠ 0 then (.failed (.bare .timedOut), s)
  else (.bytes (s.unread.take most), { s with unread := s.unread.drop most })

def read (s : Source) (call : Call) : ReadAnswer × Source :=
  let asked := { s with calls := s.calls ++ [call] }
  match s.turns with
  | [] => asked.hand (call.room s.gathers)
  | .move most :: turns => { asked with turns }.hand (min most (call.room s.gathers))
  | .fail cause :: turns => (.failed cause, { asked with turns })

/-- Steps and bytes that the stream still holds; every read that is followed by another one uses
up some of them. -/
def work (s : Source) : Nat := s.turns.length + s.unread.length

theorem hand_work (s : Source) (most : Nat) : (s.hand most).2.work ≤ s.work := by
  unfold hand work
  split <;> simp

theorem work_of_bytes {s t : Source} {c : Call} {b : UInt8} {bs : Bytes}
    (h : s.read c = (.bytes (b :: bs), t)) : t.work < s.work := by
  have key : ∀ (u : Source) (n : Nat), u.hand n = (.bytes (b :: bs), t) → t.work < u.work := by
    intro u n hu
    unfold hand at hu
    split at hu
    · simp at hu
    · obtain ⟨hb, rfl⟩ := Prod.mk.inj hu
      have hb := ReadAnswer.bytes.inj hb
      cases hu' : u.unread with
      | nil => simp [hu'] at hb
      | cons x xs =>
        cases n with
        | zero => simp at hb
        | succ n => simp only [work, hu', List.drop_succ_cons, List.length_drop, List.length_cons]; omega
  unfold read at h
  dsimp only at h
  split at h
  · exact key { s with calls := s.calls ++ [c] } _ h
  · rename_i ht
    have := key { s with turns := _, calls := s.calls ++ [c] } _ h
    simp only [work, ht, List.length_cons] at this ⊢
    omega
  · simp at h

theorem work_of_interrupted {s t : Source} {c : Call} {e : SystemError}
    (h : s.read c = (.failed e, t)) (he : e.kind = .interrupted) : t.work < s.work := by
  have key : ∀ (u : Source) (n : Nat), u.hand n ≠ (.failed e, t) := by
    intro u n hu
    unfold hand at hu
    split at hu
    · obtain ⟨he', -⟩ := Prod.mk.inj hu
      have he' := ReadAnswer.failed.inj he'
      subst he'
      cases he
    · simp at hu
  unfold read at h
  dsimp only at h
  split at h
  · exact absurd h (key { s with calls := s.calls ++ [c] } _)
  · exact absurd h (key { s with turns := _, calls := s.calls ++ [c] } _)
  · rename_i ht
    obtain ⟨-, rfl⟩ := Prod.mk.inj h
    simp only [work, ht, List.length_cons]
    omega

theorem read_work_le {s t : Source} {c : Call} {a : ReadAnswer} (h : s.read c = (a, t)) :
    t.work ≤ s.work := by
  unfold read at h
  dsimp only at h
  split at h
  · have := hand_work { s with calls := s.calls ++ [c] } (c.room s.gathers)
    rw [h] at this
    exact this
  · rename_i most turns ht
    have := hand_work { s with turns, calls := s.calls ++ [c] } (min most (c.room s.gathers))
    rw [h] at this
    simp only [work, ht, List.length_cons] at this ⊢
    omega
  · rename_i ht
    obtain ⟨-, rfl⟩ := Prod.mk.inj h
    simp only [work, ht, List.length_cons]
    omega

/-- A failed read ends the loop unless it was only interrupted. -/
def readFailure (cause : SystemError) (expected received : Nat) : TransportError :=
  match cause.kind with
  | .wouldBlock | .timedOut => .timedOut expected received
  | _ => .io cause

def readRest (s : Source) (expected : Nat) (got : Bytes) : Filled × Source :=
  if got.length < expected then
    match _ : s.read (.plain (expected - got.length)) with
    | (.bytes [], t) => (⟨got, .error (.endOfStream expected got.length)⟩, t)
    | (.bytes (b :: bs), t) => readRest t expected (got ++ b :: bs)
    | (.failed cause, t) =>
      if _ : cause.kind = .interrupted then readRest t expected got
      else (⟨got, .error (readFailure cause expected got.length)⟩, t)
  else (⟨got, .ok ()⟩, s)
termination_by s.work
decreasing_by
  · exact work_of_bytes ‹_›
  · exact work_of_interrupted ‹_› ‹_›

theorem readRest_work_le (s : Source) (expected : Nat) (got : Bytes) :
    (s.readRest expected got).2.work ≤ s.work := by
  fun_induction readRest s expected got with
  | case1 _ _ _ _ h => exact read_work_le h
  | case2 _ _ _ _ _ _ h ih => exact Nat.le_trans ih (read_work_le h)
  | case3 _ _ _ _ _ h _ ih => exact Nat.le_trans ih (read_work_le h)
  | case4 _ _ _ _ _ h => exact read_work_le h
  | case5 => exact Nat.le_refl _

/-- Bytes were missing and all came, so something was read. -/
theorem readRest_work_lt {s t : Source} {expected : Nat} {got : Bytes} {filled : Filled}
    (hg : got.length < expected) (h : s.readRest expected got = (filled, t))
    (hf : filled.result = .ok ()) : t.work < s.work := by
  rw [readRest] at h
  simp only [hg, if_true] at h
  split at h
  · obtain ⟨rfl, -⟩ := Prod.mk.inj h
    cases hf
  · rename_i b bs u hr
    have := readRest_work_le u expected (got ++ b :: bs)
    rw [h] at this
    exact Nat.lt_of_le_of_lt this (work_of_bytes hr)
  · rename_i u hr
    split at h
    · have := readRest_work_le u expected got
      rw [h] at this
      exact Nat.lt_of_le_of_lt this (work_of_interrupted hr ‹_›)
    · obtain ⟨rfl, -⟩ := Prod.mk.inj h
      cases hf

/-- Fills one buffer. -/
def readExact (s : Source) (length : Nat) : Filled × Source := s.readRest length []

def readRestScattered (s : Source) (buffers : List Nat) (expected : Nat) (got : Bytes) :
    Filled × Source :=
  if buffers = [] then (⟨got, .ok ()⟩, s)
  else
    match _ : s.read (.spread buffers) with
    | (.bytes [], t) => (⟨got, .error (.endOfStream expected got.length)⟩, t)
    | (.bytes (b :: bs), t) =>
      readRestScattered t (advance buffers (b :: bs).length) expected (got ++ b :: bs)
    | (.failed cause, t) =>
      if _ : cause.kind = .interrupted then readRestScattered t buffers expected got
      else (⟨got, .error (readFailure cause expected got.length)⟩, t)
termination_by s.work
decreasing_by
  · exact work_of_bytes ‹_›
  · exact work_of_interrupted ‹_› ‹_›

theorem readRestScattered_work_le (s : Source) (buffers : List Nat) (expected : Nat) (got : Bytes) :
    (s.readRestScattered buffers expected got).2.work ≤ s.work := by
  fun_induction readRestScattered s buffers expected got with
  | case1 => exact Nat.le_refl _
  | case2 _ _ _ _ _ h => exact read_work_le h
  | case3 _ _ _ _ _ _ _ h ih => exact Nat.le_trans ih (read_work_le h)
  | case4 _ _ _ _ _ _ h _ ih => exact Nat.le_trans ih (read_work_le h)
  | case5 _ _ _ _ _ _ h => exact read_work_le h

/-- Fills a first and then a second buffer; every call names what remains of both. -/
def readScattered (s : Source) (first second : Nat) : Filled × Source :=
  s.readRestScattered (advance [first, second] 0) (first + second) []

end Source

end ModuleLink
