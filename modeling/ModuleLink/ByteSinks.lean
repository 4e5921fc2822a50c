import ModuleLink.ScriptedCalls
import ModuleLink.TransportErrors

/-! # Writing whole messages

Writes may be short, interrupted or put off; the loops here go on until everything is written or
the stream refuses for good. -/
namespace ModuleLink

structure Sink where
  written : Bytes := []
  turns : List Turn := []
  gathers : Bool := true
  /-- Nobody reads the stream any more. -/
  gone : Bool := false
  calls : List Call := []
  deriving DecidableEq, Repr

/-- The answer to one write: how many bytes were taken. -/
inductive WriteAnswer
  | took (count : Nat)
  | failed (cause : SystemError)
  deriving DecidableEq, Repr

namespace Sink

def take (s : Sink) (bytes : Bytes) (most : Nat) : WriteAnswer × Sink :=
  (.took (min most bytes.length), { s with written := s.written ++ bytes.take most })

/-- One write call; `bytes` are the contents of the call's buffers, one after the other. -/
def write (s : Sink) (call : Call) (bytes : Bytes) : WriteAnswer × Sink :=
  let asked := { s with calls := s.calls ++ [call] }
  if s.gone then (.failed (.numbered 32), asked)
  else
    match s.turns with
    | [] => asked.take bytes (call.room s.gathers)
    | .move most :: turns => { asked with turns }.take bytes (min most (call.room s.gathers))
    | .fail cause :: turns => (.failed cause, { asked with turns })

/-- An interrupted write is repeated at once and one that would block after a pause. -/
def isRetried (cause : SystemError) : Bool :=
  cause.kind = .interrupted ∨ cause.kind = .wouldBlock

def writeFailure (cause : SystemError) : TransportError :=
  match cause.kind with
  | .brokenPipe | .connectionReset => .brokenPipe
  | _ => .io cause

theorem turns_of_retried {s t : Sink} {c : Call} {bytes : Bytes} {e : SystemError}
    (h : s.write c bytes = (.failed e, t)) (he : isRetried e = true) :
    t.turns.length < s.turns.length := by
  unfold write at h
  split at h
  · obtain ⟨he', -⟩ := Prod.mk.inj h
    have he' := WriteAnswer.failed.inj he'
    subst he'
    simp [isRetried, SystemError.kind, ErrorKind.ofNumber] at he
  · split at h
    · simp [take] at h
    · simp [take] at h
    · rename_i ht
      obtain ⟨-, rfl⟩ := Prod.mk.inj h
      simp [ht]

theorem turns_of_took {s t : Sink} {c : Call} {bytes : Bytes} {n : Nat}
    (h : s.write c bytes = (.took n, t)) : t.turns.length ≤ s.turns.length := by
  unfold write at h
  split at h
  · simp at h
  · split at h
    · obtain ⟨-, rfl⟩ := Prod.mk.inj h
      simp
    · rename_i ht
      obtain ⟨-, rfl⟩ := Prod.mk.inj h
      simp [ht]
    · simp at h

/-- Writes all of one buffer. -/
def writeAll (s : Sink) (bytes : Bytes) : Except TransportError Unit × Sink :=
  if _ : bytes = [] then (.ok (), s)
  else
    match h : s.write (.plain bytes.length) bytes with
    | (.took 0, t) => (.error .writeZero, t)
    | (.took (n + 1), t) => writeAll t (bytes.drop (n + 1))
    | (.failed cause, t) =>
      if _ : isRetried cause = true then writeAll t bytes else (.error (writeFailure cause), t)
termination_by s.turns.length + bytes.length
decreasing_by
  · have := turns_of_took h
    have := List.length_pos_iff.2 ‹bytes ≠ []›
    simp only [List.length_drop]
    omega
  · have := turns_of_retried h ‹_›
    omega

/-- What is left of segments after so many bytes; segments with nothing left are dropped from the
front. -/
def advance : List Bytes → Nat → List Bytes
  | [], _ => []
  | s :: ss, moved => if s.length ≤ moved then advance ss (moved - s.length) else s.drop moved :: ss

theorem advance_le (segments : List Bytes) (moved : Nat) :
    (advance segments moved).flatten.length ≤ segments.flatten.length := by
  induction segments generalizing moved with
  | nil => simp [advance]
  | cons s ss ih =>
    unfold advance
    split
    · have := ih (moved - s.length)
      simp only [List.flatten_cons, List.length_append]
      omega
    · simp only [List.flatten_cons, List.length_append, List.length_drop]
      omega

theorem advance_lt {segments : List Bytes} {moved : Nat} (h : advance segments (moved + 1) ≠ []) :
    (advance segments (moved + 1)).flatten.length < segments.flatten.length := by
  induction segments generalizing moved with
  | nil => simp [advance] at h
  | cons s ss ih =>
    unfold advance at h ⊢
    split
    · rename_i hs
      simp only [hs, if_true] at h
      simp only [List.flatten_cons, List.length_append]
      by_cases h0 : s.length = 0
      · simp only [h0, Nat.sub_zero] at h ⊢
        have := ih h
        omega
      · have := advance_le ss (moved + 1 - s.length)
        omega
    · simp only [List.flatten_cons, List.length_append, List.length_drop]
      omega

def writeRest (s : Sink) (segments : List Bytes) : Except TransportError Unit × Sink :=
  if segments = [] then (.ok (), s)
  else
    match h : s.write (.spread (segments.map List.length)) segments.flatten with
    | (.took 0, t) => (.error .writeZero, t)
    | (.took (n + 1), t) =>
      if ha : advance segments (n + 1) = [] then (.ok (), t) else writeRest t (advance segments (n + 1))
    | (.failed cause, t) =>
      if _ : isRetried cause = true then writeRest t segments else (.error (writeFailure cause), t)
termination_by s.turns.length + segments.flatten.length
decreasing_by
  · have := turns_of_took h
    have := advance_lt ha
    omega
  · have := turns_of_retried h ‹_›
    omega

/-- Writes every segment in order as if they were one buffer, unless their lengths do not add up
to what the caller expects. -/
def writeVectored (s : Sink) (segments : List Bytes) (expected : Nat) :
    Except TransportError Unit × Sink :=
  let actual := capacity (segments.map List.length)
  if actual = expected then s.writeRest (advance segments 0)
  else (.error (.lengthMismatch expected actual), s)

end Sink

end ModuleLink
