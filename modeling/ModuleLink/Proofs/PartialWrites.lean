import Mathlib.Tactic.Common
import ModuleLink.Proofs.TransferLoops
import ModuleLink.Proofs.WriteLoops

/-! # Writes that come in parts

A write loop hands over what is left of its segments until all of it was taken. At every moment the
stream has the beginning of the segments' bytes, as far as its answers say, and the loop ends with
the first answer that takes nothing or fails for good. Segments are written as one buffer with all
their bytes would be. -/
namespace ModuleLink

def WriteAnswer.stop? : WriteAnswer → Option TransportError
  | .took 0 => some .writeZero
  | .took (_ + 1) => none
  | .failed cause =>
    match cause.kind with
    | .interrupted | .wouldBlock => none
    | .brokenPipe | .connectionReset => some .brokenPipe
    | _ => some (.io cause)

def WriteAnswer.count : WriteAnswer → Nat
  | .took n => n
  | .failed _ => 0

theorem WriteAnswer.stop?_failed_of_retried {cause : SystemError}
    (h : Sink.isRetried cause = true) : (WriteAnswer.failed cause).stop? = none := by
  have kind : cause.kind = .interrupted ∨ cause.kind = .wouldBlock := by
    simpa only [Sink.isRetried, decide_eq_true_eq] using h
  rcases kind with kind | kind
  · simp only [stop?, kind]
  · simp only [stop?, kind]

theorem WriteAnswer.stop?_failed {cause : SystemError} (h : ¬ Sink.isRetried cause = true) :
    (WriteAnswer.failed cause).stop? = some (Sink.writeFailure cause) := by
  have kind : ¬ (cause.kind = .interrupted ∨ cause.kind = .wouldBlock) := by
    simpa only [Sink.isRetried, decide_eq_true_eq] using h
  simp only [stop?, Sink.writeFailure]
  cases hk : cause.kind with
  | interrupted => exact absurd (.inl hk) kind
  | wouldBlock => exact absurd (.inr hk) kind
  | _ => rfl

/-- An answer that stops a loop took nothing. -/
theorem WriteAnswer.count_of_stop? {a : WriteAnswer} {e : TransportError} (h : a.stop? = some e) :
    a.count = 0 := by
  cases a with
  | failed => rfl
  | took n =>
    cases n with
    | zero => rfl
    | succ => cases h

namespace Sink

/-- Segments from which bytes are dropped twice. -/
theorem advance_advance (segments : List Bytes) (a b : Nat) :
    advance (advance segments a) b = advance segments (a + b) := by
  induction segments generalizing a with
  | nil => rfl
  | cons s ss ih =>
    by_cases gone : s.length ≤ a
    · have gone' : s.length ≤ a + b := by omega
      have rest : a + b - s.length = a - s.length + b := by omega
      simp only [advance, if_pos gone, if_pos gone', ih, rest]
    · by_cases gone' : s.length ≤ a + b
      · have gone'' : s.length - a ≤ b := by omega
        have rest : a + b - s.length = b - (s.length - a) := by omega
        simp only [advance, List.length_drop, if_neg gone, if_pos gone', if_pos gone'', rest]
      · have gone'' : ¬ s.length - a ≤ b := by omega
        simp only [advance, List.length_drop, if_neg gone, if_neg gone', if_neg gone'',
          List.drop_drop]

theorem advance_eq_nil_iff (segments : List Bytes) (moved : Nat) :
    advance segments moved = [] ↔ segments.flatten.length ≤ moved := by
  rw [← List.drop_eq_nil_iff, ← flatten_advance]
  constructor
  · intro none
    rw [none]
    rfl
  · intro none
    by_cases h : advance segments moved = []
    · exact h
    · exact absurd none (flatten_advance_ne_nil h)

def sending (whole : Bytes) : Rounds Sink WriteAnswer TransportError where
  total := whole.length
  call k s := s.write (.plain (whole.drop k).length) (whole.drop k)
  moved a := a.count
  stop? _ a := a.stop?

def gathering (segments : List Bytes) : Rounds Sink WriteAnswer TransportError :=
  { sending segments.flatten with
    call := fun k s => s.write (.spread ((advance segments k).map List.length))
      (advance segments k).flatten }

theorem gathering_call (segments : List Bytes) (k : Nat) (s : Sink) :
    (gathering segments).call k s =
      s.write (.spread ((advance segments k).map List.length)) (segments.flatten.drop k) := by
  rw [← flatten_advance]
  rfl

theorem writeAll_run (whole : Bytes) (s : Sink) (bytes : Bytes) (k : Nat)
    (hb : bytes = whole.drop k) :
    ∃ answers, (sending whole).Run s k answers (s.writeAll bytes).1 (s.writeAll bytes).2 := by
  have left : ∀ {k : Nat}, whole.drop k ≠ [] → k < whole.length := by
    intro k remain
    exact Nat.lt_of_not_le (mt List.drop_eq_nil_iff.mpr remain)
  fun_induction writeAll s bytes generalizing k with
  | case1 s =>
    have all : whole.length ≤ k := List.drop_eq_nil_iff.mp hb.symm
    exact ⟨[], .done all⟩
  | case2 s bytes remain t h =>
    subst hb
    exact ⟨[.took 0], .stops (left remain) h rfl⟩
  | case3 s bytes remain n t h ih =>
    subst hb
    obtain ⟨answers, run⟩ := ih (k + (n + 1)) List.drop_drop
    exact ⟨.took (n + 1) :: answers, .goesOn (left remain) h rfl run⟩
  | case4 s bytes remain cause t h retried ih =>
    obtain ⟨answers, run⟩ := ih k hb
    subst hb
    have on := WriteAnswer.stop?_failed_of_retried retried
    exact ⟨.failed cause :: answers, .goesOn (left remain) h on run⟩
  | case5 s bytes remain cause t h final =>
    subst hb
    exact ⟨[.failed cause], .stops (left remain) h (WriteAnswer.stop?_failed final)⟩

theorem writeRest_run (segments : List Bytes) (s : Sink) (remaining : List Bytes) (k : Nat)
    (hr : remaining = advance segments k) :
    ∃ answers, (gathering segments).Run s k answers (s.writeRest remaining).1
      (s.writeRest remaining).2 := by
  have left : ∀ {k : Nat}, advance segments k ≠ [] → k < segments.flatten.length := by
    intro k remain
    exact Nat.lt_of_not_le (mt (advance_eq_nil_iff segments k).mpr remain)
  fun_induction writeRest s remaining generalizing k with
  | case1 s =>
    have all : segments.flatten.length ≤ k := (advance_eq_nil_iff segments k).mp hr.symm
    exact ⟨[], .done all⟩
  | case2 s remaining remain t h =>
    subst hr
    exact ⟨[.took 0], .stops (left remain) h rfl⟩
  | case3 s remaining remain n t h nothing =>
    subst hr
    rw [advance_advance] at nothing
    have all : segments.flatten.length ≤ k + (n + 1) :=
      (advance_eq_nil_iff segments (k + (n + 1))).mp nothing
    exact ⟨[.took (n + 1)], .goesOn (left remain) h rfl (.done all)⟩
  | case4 s remaining remain n t h more ih =>
    subst hr
    obtain ⟨answers, run⟩ := ih (k + (n + 1)) (advance_advance segments k (n + 1))
    exact ⟨.took (n + 1) :: answers, .goesOn (left remain) h rfl run⟩
  | case5 s remaining remain cause t h retried ih =>
    obtain ⟨answers, run⟩ := ih k hr
    subst hr
    have on := WriteAnswer.stop?_failed_of_retried retried
    exact ⟨.failed cause :: answers, .goesOn (left remain) h on run⟩
  | case6 s remaining remain cause t h final =>
    subst hr
    exact ⟨[.failed cause], .stops (left remain) h (WriteAnswer.stop?_failed final)⟩

/-- A call takes the beginning of what it was given, as much as it says. -/
theorem write_takes (s : Sink) (c : Call) (bytes : Bytes) :
    (s.write c bytes).1.count ≤ bytes.length ∧
      (s.write c bytes).2.written = s.written ++ bytes.take (s.write c bytes).1.count := by
  have within : (s.write c bytes).1.count ≤ bytes.length := by
    unfold write
    split
    · exact Nat.zero_le _
    · split
      · exact Nat.min_le_right _ _
      · exact Nat.min_le_right _ _
      · exact Nat.zero_le _
  refine ⟨within, ?_⟩
  rcases h : s.write c bytes with ⟨n | cause, t⟩
  · exact write_took h
  · exact (write_failed h).trans (List.append_nil _).symm

theorem gathering_bounded (segments : List Bytes) : (gathering segments).Bounded where
  within k s more := by
    have more : k < segments.flatten.length := more
    have takes := (s.write_takes (.spread ((advance segments k).map List.length))
      (segments.flatten.drop k)).1
    rw [← gathering_call, List.length_drop] at takes
    show k + ((gathering segments).call k s).1.count ≤ segments.flatten.length
    omega
  idle _ _ _ stop := WriteAnswer.count_of_stop? stop

def taken (answers : List WriteAnswer) : Nat :=
  answers.foldr (fun a n => a.count + n) 0

/-- A stream answers two calls alike that give it the same bytes and of which it serves as many. -/
theorem write_congr {s s' : Sink} {c c' : Call} (bytes : Bytes)
    (same : { s with calls := [] } = { s' with calls := [] })
    (room : c.room s.gathers = c'.room s'.gathers) :
    (s.write c bytes).1 = (s'.write c' bytes).1 ∧
      { (s.write c bytes).2 with calls := [] } = { (s'.write c' bytes).2 with calls := [] } := by
  obtain ⟨written, turns, gathers, gone, calls⟩ := s
  obtain ⟨written', turns', gathers', gone', calls'⟩ := s'
  obtain ⟨rfl, rfl, rfl, rfl, -⟩ := by simpa only [Sink.mk.injEq] using same
  dsimp only at room
  simp only [write, take, room]
  cases gone with
  | true => exact ⟨rfl, rfl⟩
  | false =>
    cases turns with
    | nil => exact ⟨rfl, rfl⟩
    | cons turn turns => cases turn <;> exact ⟨rfl, rfl⟩

theorem gathers_write (s : Sink) (c : Call) (bytes : Bytes) :
    (s.write c bytes).2.gathers = s.gathers := by
  unfold write
  split
  · rfl
  · split <;> rfl

/-- What a loop over segments does with the answers to its calls, each of which names what remains of
the segments. -/
structure Delivers (s : Sink) (segments : List Bytes) (answers : List WriteAnswer)
    (result : Except TransportError Unit) (t : Sink) : Prop where
  run : (gathering segments).Run s 0 answers result t
  written : t.written = s.written ++ segments.flatten.take (taken answers)
  meanwhile : ∀ before a after, answers = before ++ a :: after →
    ∃ u, u.written = s.written ++ segments.flatten.take (taken before) ∧
      (gathering segments).Run u (taken before) (a :: after) result t
  ok_iff : result = .ok () ↔ t.written = s.written ++ segments.flatten
  error_iff : ∀ e, result = .error e ↔
    ∃ before last, answers = before ++ [last] ∧ last.stop? = some e
  stopped : ∀ before a after, answers = before ++ a :: after →
    taken before < segments.flatten.length ∧ (a.stop? ≠ none → after = [])

/-- Each call adds to the stream what follows on the bytes that were taken before. -/
theorem gathering_call_written (segments : List Bytes) {start : Bytes} {k : Nat} {s : Sink}
    (h : s.written = start ++ segments.flatten.take k) :
    ((gathering segments).call k s).2.written =
      start ++ segments.flatten.take (k + ((gathering segments).call k s).1.count) := by
  have takes := (s.write_takes (.spread ((advance segments k).map List.length))
    (segments.flatten.drop k)).2
  rw [← gathering_call] at takes
  rw [takes, h, List.append_assoc, List.take_add]

theorem writeRest_delivers (s : Sink) (segments : List Bytes) :
    ∃ answers, s.Delivers segments answers (s.writeRest (advance segments 0)).1
      (s.writeRest (advance segments 0)).2 := by
  obtain ⟨answers, run⟩ := writeRest_run segments s (advance segments 0) 0 rfl
  have bounded := gathering_bounded segments
  have start : s.written = s.written ++ segments.flatten.take 0 := (List.append_nil _).symm
  obtain ⟨written, meanwhile⟩ := run.keeps
    (I := fun k u => u.written = s.written ++ segments.flatten.take k)
    (fun k u _ h => gathering_call_written segments h) start
  have ok := run.ok_iff bounded (Nat.zero_le _)
  have within := run.le_total bounded (Nat.zero_le _)
  simp only [Nat.zero_add] at written meanwhile ok within
  refine ⟨answers, run, written, meanwhile, ?_, ?_, ?_⟩
  · rw [ok, written, List.append_cancel_left_eq]
    constructor
    · intro all
      exact List.take_of_length_le (Nat.le_of_eq all.symm)
    · intro all
      have least := List.length_take_le ((gathering segments).movedBy answers) segments.flatten
      rw [all] at least
      exact Nat.le_antisymm within least
  · exact run.error_iff bounded
  · intro before a after split
    have there := run.at_call split
    rwa [Nat.zero_add] at there

/-- A stream that takes all segments of a call at once is written segments as it is written one
buffer with all their bytes. -/
theorem writeRest_eq_writeAll {s : Sink} (gathers : s.gathers = true) (segments : List Bytes) :
    (s.writeRest (advance segments 0)).1 = (s.writeAll segments.flatten).1 ∧
      { (s.writeRest (advance segments 0)).2 with calls := [] } =
        { (s.writeAll segments.flatten).2 with calls := [] } := by
  obtain ⟨answers, run⟩ := writeRest_run segments s (advance segments 0) 0 rfl
  obtain ⟨answers', run'⟩ := writeAll_run segments.flatten s segments.flatten 0 rfl
  have start : s.gathers = true ∧ { s with calls := [] } = { s with calls := [] } := ⟨gathers, rfl⟩
  obtain ⟨-, result, -, same⟩ := run.agrees
    (R := fun s s' => s.gathers = true ∧ { s with calls := [] } = { s' with calls := [] })
    (f := (sending segments.flatten).call) (fun k s s' _ ⟨gathers, same⟩ => by
      have room : (Call.spread ((advance segments k).map List.length)).room s.gathers =
          (Call.plain (segments.flatten.drop k).length).room s'.gathers := by
        rw [gathers]
        show capacity ((advance segments k).map List.length) = (segments.flatten.drop k).length
        rw [capacity_map_length, flatten_advance]
      obtain ⟨answer, after⟩ := write_congr (segments.flatten.drop k) same room
      rw [gathering_call]
      exact ⟨answer, (s.gathers_write _ _).trans gathers, after⟩)
    run' start
  exact ⟨result, same⟩

/-- Whatever a stream answers, it gets the segments' bytes in order, as far as they go, and the loop
ends with the first answer that stops it, or well with the last byte. Nothing is written if the
caller expects another length, and it is no different from writing one buffer where a call may serve
all segments. -/
theorem writeVectored_exact (s : Sink) (segments : List Bytes) (expected : Nat) :
    let r := s.writeVectored segments expected
    let whole := s.writeAll segments.flatten
    (expected ≠ segments.flatten.length →
      r = (.error (.lengthMismatch expected segments.flatten.length), s)) ∧
    (expected = segments.flatten.length →
      (∃ answers, s.Delivers segments answers r.1 r.2) ∧
      (s.gathers = true → r.1 = whole.1 ∧ { r.2 with calls := [] } = { whole.2 with calls := [] })) := by
  intro r whole
  constructor
  · intro other
    simp only [r, writeVectored, capacity_map_length]
    rw [if_neg (Ne.symm other)]
  · rintro rfl
    have through : r = s.writeRest (advance segments 0) := by
      simp only [r, writeVectored, capacity_map_length, if_true]
    rw [through]
    exact ⟨s.writeRest_delivers segments, fun gathers => writeRest_eq_writeAll gathers segments⟩

def breakingSink : Sink where
  written := [9]
  turns := [.move 2, .fail (.bare .interrupted), .fail (.numbered 11), .move 1, .fail (.numbered 32)]

theorem writeVectored_exact_breakingSink :
    breakingSink.writeVectored [[1], [2]] 3 = (.error (.lengthMismatch 3 2), breakingSink) ∧
      breakingSink.gathers = true ∧
      (breakingSink.writeVectored [[], [1], [], [2, 3], [4], []] 4).1 = .error .brokenPipe ∧
      (breakingSink.writeVectored [[], [1], [], [2, 3], [4], []] 4).1 =
        (breakingSink.writeAll [1, 2, 3, 4]).1 ∧
      ∃ answers, ([9, 1, 2, 3] : Bytes) = [9] ++ List.take (taken answers) [1, 2, 3, 4] ∧
        breakingSink.Delivers [[], [1], [], [2, 3], [4], []] answers
          (breakingSink.writeVectored [[], [1], [], [2, 3], [4], []] 4).1
          (breakingSink.writeVectored [[], [1], [], [2, 3], [4], []] 4).2 := by
  have other := (writeVectored_exact breakingSink [[1], [2]] 3).1 (by decide)
  obtain ⟨⟨answers, delivers⟩, alike⟩ :=
    (writeVectored_exact breakingSink [[], [1], [], [2, 3], [4], []] 4).2 rfl
  have broken : (breakingSink.writeVectored [[], [1], [], [2, 3], [4], []] 4).1 =
      .error .brokenPipe := by decide +kernel
  have written : (breakingSink.writeVectored [[], [1], [], [2, 3], [4], []] 4).2.written =
      [9, 1, 2, 3] := by decide +kernel
  exact ⟨other, rfl, broken, (alike rfl).1, answers, written.symm.trans delivers.written, delivers⟩

end Sink

end ModuleLink
