import Mathlib.Tactic.Common
import ModuleLink.Proofs.ReadLoops
import ModuleLink.Proofs.TransferLoops

/-! # Reads that come in parts

A read loop takes what each call gives it and calls again for what is still missing. Whatever the
calls answer, the bytes come to stand in the buffers in the order of the stream, one buffer after the
other, and the loop ends with the first answer that is an end, a deadline or a failure. Two buffers
are filled as one of their common length would be. -/
namespace ModuleLink

/-- Why a loop that wants `expected` bytes and has `received` of them stops at an answer, if it
does. -/
def ReadAnswer.stop? (expected received : Nat) : ReadAnswer → Option TransportError
  | .bytes [] => some (.endOfStream expected received)
  | .bytes (_ :: _) => none
  | .failed cause =>
    match cause.kind with
    | .interrupted => none
    | .wouldBlock | .timedOut => some (.timedOut expected received)
    | _ => some (.io cause)

/-- A buffer after bytes were put in from an index on, as far as there is room. -/
def overwrite (buffer : Bytes) (start : Nat) (got : Bytes) : Bytes :=
  buffer.take start ++ got.take (buffer.length - start) ++ buffer.drop (start + got.length)

/-- Buffers after bytes were put into them, one buffer after the other, where so many bytes of room
were used up before. -/
def place : List Bytes → Nat → Bytes → List Bytes
  | [], _, _ => []
  | b :: bs, start, got =>
    if b.length ≤ start then b :: place bs (start - b.length) got
    else overwrite b start got :: place bs 0 (got.drop (b.length - start))

def placeEach (buffers : List Bytes) (start : Nat) : List ReadAnswer → List Bytes
  | [] => buffers
  | a :: answers => placeEach (place buffers start a.got) (start + a.got.length) answers

theorem ReadAnswer.stop?_failed_eq_none_iff (expected received : Nat) (cause : SystemError) :
    (ReadAnswer.failed cause).stop? expected received = none ↔ cause.kind = .interrupted := by
  simp only [stop?]
  cases cause.kind <;> simp

theorem ReadAnswer.stop?_failed {cause : SystemError} (h : cause.kind ≠ .interrupted)
    (expected received : Nat) :
    (ReadAnswer.failed cause).stop? expected received =
      some (Source.readFailure cause expected received) := by
  simp only [stop?, Source.readFailure]
  cases hk : cause.kind with
  | interrupted => exact absurd hk h
  | _ => rfl

/-- An answer that stops a loop gave no bytes. -/
theorem ReadAnswer.got_of_stop? {a : ReadAnswer} {expected received : Nat} {e : TransportError}
    (h : a.stop? expected received = some e) : a.got = [] := by
  cases a with
  | failed => rfl
  | bytes got =>
    cases got with
    | nil => rfl
    | cons => cases h

/-- No interruption is reported. -/
theorem ReadAnswer.kind_of_stop? {a : ReadAnswer} {expected received : Nat} {cause : SystemError}
    (h : a.stop? expected received = some (.io cause)) : cause.kind ≠ .interrupted := by
  cases a with
  | bytes got => cases got <;> cases h
  | failed other =>
    intro interrupted
    by_cases hk : other.kind = .interrupted
    · rw [(stop?_failed_eq_none_iff expected received other).mpr hk] at h
      cases h
    · rw [stop?_failed hk] at h
      have same : Source.readFailure other expected received = .io cause := Option.some.inj h
      simp only [Source.readFailure] at same
      split at same
      · cases same
      · cases same
      · obtain rfl := TransportError.io.inj same
        exact hk interrupted

section Buffers

theorem length_overwrite (b : Bytes) (start : Nat) (got : Bytes) :
    (overwrite b start got).length = b.length := by
  simp only [overwrite, List.length_append, List.length_take, List.length_drop]
  omega

theorem overwrite_nil (b : Bytes) (start : Nat) : overwrite b start [] = b := by
  simp only [overwrite, List.take_nil, List.append_nil, List.length_nil, Nat.add_zero,
    List.take_append_drop]

/-- Bytes that follow each other can be put in at once. -/
theorem overwrite_append (b : Bytes) (start : Nat) (x y : Bytes) :
    overwrite (overwrite b start x) (start + x.length) y = overwrite b start (x ++ y) := by
  by_cases room : start + x.length ≤ b.length
  · have all : x.take (b.length - start) = x := List.take_of_length_le (by omega)
    have front : (b.take start ++ x).length = start + x.length := by
      rw [List.length_append, List.length_take, Nat.min_eq_left (by omega)]
    have left : b.length - start = x.length + (b.length - (start + x.length)) := by omega
    rw [overwrite, length_overwrite]
    simp only [overwrite, all]
    rw [List.take_left' front, List.drop_append, front, List.drop_eq_nil_of_le (by omega),
      List.nil_append, List.drop_drop, left, List.take_length_add_append, List.length_append]
    simp only [List.append_assoc]
    congr 4
    omega
  · have full : b.length - (start + x.length) = 0 := by omega
    have short : b.length - start ≤ x.length := by omega
    rw [overwrite, length_overwrite, full, List.take_zero, List.append_nil,
      List.take_of_length_le (by rw [length_overwrite]; omega),
      List.drop_eq_nil_of_le (by rw [length_overwrite]; omega), List.append_nil]
    simp only [overwrite]
    rw [List.take_append_of_le_length short, List.drop_eq_nil_of_le (by omega),
      List.drop_eq_nil_of_le (by rw [List.length_append]; omega)]

theorem place_nil (buffers : List Bytes) (start : Nat) : place buffers start [] = buffers := by
  induction buffers generalizing start with
  | nil => rfl
  | cons b bs ih =>
    simp only [place, List.drop_nil, ih, overwrite_nil, ite_self]

theorem place_append (buffers : List Bytes) (start : Nat) (x y : Bytes) :
    place (place buffers start x) (start + x.length) y = place buffers start (x ++ y) := by
  induction buffers generalizing start x with
  | nil => rfl
  | cons b bs ih =>
    by_cases passed : b.length ≤ start
    · have passed' : b.length ≤ start + x.length := by omega
      have rest : start + x.length - b.length = start - b.length + x.length := by omega
      simp only [place, if_pos passed, if_pos passed', rest, ih]
    · simp only [place, if_neg passed, length_overwrite]
      by_cases filled : b.length ≤ start + x.length
      · -- The first piece fills this buffer, so the second one goes to those behind it.
        have short : b.length - start ≤ x.length := by omega
        have rest : start + x.length - b.length = 0 + (x.drop (b.length - start)).length := by
          rw [List.length_drop]
          omega
        have beyond : b.drop (start + (x ++ y).length) = [] := by
          apply List.drop_eq_nil_of_le
          rw [List.length_append]
          omega
        rw [if_pos filled, rest, ih, List.drop_append_of_le_length short]
        simp only [overwrite]
        rw [List.take_append_of_le_length short, List.drop_eq_nil_of_le filled, beyond]
      · have long : x.length ≤ b.length - start := by omega
        have rest : b.length - (start + x.length) = b.length - start - x.length := by omega
        rw [if_neg filled, overwrite_append, List.drop_eq_nil_of_le long, place_nil, rest,
          List.drop_append, List.drop_eq_nil_of_le long, List.nil_append]

theorem placeEach_eq (buffers : List Bytes) (start : Nat) (answers : List ReadAnswer) :
    placeEach buffers start answers = place buffers start (answers.flatMap ReadAnswer.got) := by
  induction answers generalizing buffers start with
  | nil => exact (place_nil buffers start).symm
  | cons a answers ih => rw [placeEach, ih, place_append, List.flatMap_cons]

/-- Bytes that are put in from the start fill one buffer after the other. -/
theorem place_cons (b : Bytes) (bs : List Bytes) (got : Bytes) :
    place (b :: bs) 0 got =
      (got.take b.length ++ b.drop got.length) :: place bs 0 (got.drop b.length) := by
  cases b with
  | nil => simp [place]
  | cons x b => simp [place, overwrite]

end Buffers

/-- Buffers from which bytes are dropped twice. -/
theorem advance_advance (ns : List Nat) (a b : Nat) :
    advance (advance ns a) b = advance ns (a + b) := by
  induction ns generalizing a with
  | nil => rfl
  | cons n ns ih =>
    by_cases gone : n ≤ a
    · have gone' : n ≤ a + b := by omega
      have rest : a + b - n = a - n + b := by omega
      simp only [advance, if_pos gone, if_pos gone', ih, rest]
    · by_cases gone' : n ≤ a + b
      · have gone'' : n - a ≤ b := by omega
        have rest : a + b - n = b - (n - a) := by omega
        simp only [advance, if_neg gone, if_pos gone', if_pos gone'', rest]
      · have gone'' : ¬ n - a ≤ b := by omega
        have rest : n - a - b = n - (a + b) := by omega
        simp only [advance, if_neg gone, if_neg gone', if_neg gone'', rest]

namespace Source

def exacting (length : Nat) : Rounds Source ReadAnswer TransportError where
  total := length
  call k s := s.read (.plain (length - k))
  moved a := a.got.length
  stop? k a := a.stop? length k

def scattering (first second : Nat) : Rounds Source ReadAnswer TransportError :=
  { exacting (first + second) with
    call := fun k s => s.read (.spread (advance [first, second] k)) }

theorem readRest_run (s : Source) (expected : Nat) (got : Bytes) :
    ∃ answers, (s.readRest expected got).1.got = got ++ answers.flatMap ReadAnswer.got ∧
      (exacting expected).Run s got.length answers (s.readRest expected got).1.result
        (s.readRest expected got).2 := by
  fun_induction readRest s expected got with
  | case1 s got more t h =>
    refine ⟨[.bytes []], (List.append_nil got).symm, ?_⟩
    exact .stops more h rfl
  | case2 s got more b bs t h ih =>
    obtain ⟨answers, taken, run⟩ := ih
    refine ⟨.bytes (b :: bs) :: answers, ?_, ?_⟩
    · rw [taken, List.append_assoc, List.flatMap_cons]
      rfl
    · rw [List.length_append] at run
      exact .goesOn more h rfl run
  | case3 s got more cause t h interrupted ih =>
    obtain ⟨answers, taken, run⟩ := ih
    refine ⟨.failed cause :: answers, taken, ?_⟩
    have on := (ReadAnswer.stop?_failed_eq_none_iff expected got.length cause).mpr interrupted
    exact .goesOn more h on run
  | case4 s got more cause t h kind =>
    refine ⟨[.failed cause], (List.append_nil got).symm, ?_⟩
    exact .stops more h (ReadAnswer.stop?_failed kind expected got.length)
  | case5 s got all => exact ⟨[], (List.append_nil got).symm, .done (Nat.not_lt.mp all)⟩

theorem readRestScattered_run {first second : Nat} (s : Source) (buffers : List Nat)
    (expected : Nat) (got : Bytes) (he : expected = first + second)
    (hb : buffers = advance [first, second] got.length) :
    ∃ answers,
      (s.readRestScattered buffers expected got).1.got = got ++ answers.flatMap ReadAnswer.got ∧
      (scattering first second).Run s got.length answers
        (s.readRestScattered buffers expected got).1.result
        (s.readRestScattered buffers expected got).2 := by
  have left : ∀ {k : Nat}, advance [first, second] k ≠ [] → k < first + second := by
    intro k remain
    have := mt (advance_eq_nil_iff [first, second] k).mpr remain
    simpa using this
  fun_induction readRestScattered s buffers expected got with
  | case1 s got =>
    have all : first + second ≤ got.length := by
      simpa using (advance_eq_nil_iff [first, second] got.length).mp hb.symm
    exact ⟨[], (List.append_nil got).symm, .done all⟩
  | case2 s buffers got remain t h =>
    subst hb he
    refine ⟨[.bytes []], (List.append_nil got).symm, ?_⟩
    exact .stops (left remain) h rfl
  | case3 s buffers got remain b bs t h ih =>
    subst hb
    obtain ⟨answers, taken, run⟩ := ih (by rw [advance_advance, List.length_append])
    refine ⟨.bytes (b :: bs) :: answers, ?_, ?_⟩
    · rw [taken, List.append_assoc, List.flatMap_cons]
      rfl
    · rw [List.length_append] at run
      exact .goesOn (left remain) h rfl run
  | case4 s buffers got remain cause t h interrupted ih =>
    obtain ⟨answers, taken, run⟩ := ih hb
    subst hb he
    refine ⟨.failed cause :: answers, taken, ?_⟩
    have on := (ReadAnswer.stop?_failed_eq_none_iff (first + second) got.length cause).mpr interrupted
    exact .goesOn (left remain) h on run
  | case5 s buffers got remain cause t h kind =>
    subst hb he
    refine ⟨[.failed cause], (List.append_nil got).symm, ?_⟩
    exact .stops (left remain) h (ReadAnswer.stop?_failed kind (first + second) got.length)

theorem movedBy_eq (length : Nat) (answers : List ReadAnswer) :
    (exacting length).movedBy answers = (answers.flatMap ReadAnswer.got).length := by
  induction answers with
  | nil => rfl
  | cons a answers ih => rw [Rounds.movedBy_cons, ih, List.flatMap_cons, List.length_append]; rfl

theorem length_read_le (s : Source) (c : Call) : (s.read c).1.got.length ≤ c.room s.gathers :=
  (read_yields (a := (s.read c).1) (t := (s.read c).2) rfl).2

theorem scattering_bounded (first second : Nat) : (scattering first second).Bounded where
  within k s more := by
    have room := s.length_read_le (.spread (advance [first, second] k))
    have fits := Nat.le_trans room (Call.room_spread_le _ _)
    rw [capacity_advance] at fits
    have more : k < first + second := more
    have all : capacity [first, second] = first + second := by simp
    show k + (s.read (.spread (advance [first, second] k))).1.got.length ≤ first + second
    omega
  idle k a e stop := by
    show a.got.length = 0
    rw [ReadAnswer.got_of_stop? stop]
    rfl

/-- A stream answers two calls alike that it can serve with as many bytes. -/
theorem read_congr {s s' : Source} {c c' : Call} (same : { s with calls := [] } = { s' with calls := [] })
    (room : c.room s.gathers = c'.room s'.gathers) :
    (s.read c).1 = (s'.read c').1 ∧
      { (s.read c).2 with calls := [] } = { (s'.read c').2 with calls := [] } := by
  obtain ⟨unread, turns, gathers, exhaustion, calls⟩ := s
  obtain ⟨unread', turns', gathers', exhaustion', calls'⟩ := s'
  obtain ⟨rfl, rfl, rfl, rfl, -⟩ := by simpa only [Source.mk.injEq] using same
  dsimp only at room
  simp only [read, hand, room]
  cases turns with
  | nil =>
    dsimp only
    split <;> exact ⟨rfl, rfl⟩
  | cons turn turns =>
    cases turn with
    | fail cause => exact ⟨rfl, rfl⟩
    | move most =>
      dsimp only
      split <;> exact ⟨rfl, rfl⟩

/-- What a loop over two buffers does with the answers to its calls, each of which names what
remains of the buffers. -/
structure FillsBoth (s : Source) (first second : Bytes) (answers : List ReadAnswer) (filled : Filled)
    (t : Source) : Prop where
  run : (scattering first.length second.length).Run s 0 answers filled.result t
  got : filled.got = answers.flatMap ReadAnswer.got
  unread : s.unread = filled.got ++ t.unread
  placed : placeEach [first, second] 0 answers =
    [filled.got.take first.length ++ first.drop filled.got.length,
      filled.got.drop first.length ++ second.drop (filled.got.drop first.length).length]
  ok_iff : filled.result = .ok () ↔ filled.got.length = first.length + second.length
  error_iff : ∀ e, filled.result = .error e ↔ ∃ before last, answers = before ++ [last] ∧
    last.stop? (first.length + second.length) filled.got.length = some e
  stopped : ∀ before a after, answers = before ++ a :: after →
    a.stop? (first.length + second.length) (before.flatMap ReadAnswer.got).length ≠ none → after = []

theorem readScattered_fillsBoth (s : Source) (first second : Bytes) :
    ∃ answers, s.FillsBoth first second answers (s.readScattered first.length second.length).1
      (s.readScattered first.length second.length).2 := by
  obtain ⟨answers, got, run⟩ := s.readRestScattered_run
    (advance [first.length, second.length] 0) (first.length + second.length) [] rfl rfl
  have yields := (s.readScattered_fills first.length second.length).yields
  change (s.readScattered first.length second.length).1.got = _ at got
  change Rounds.Run _ s 0 answers (s.readScattered first.length second.length).1.result
    (s.readScattered first.length second.length).2 at run
  generalize s.readScattered first.length second.length = r at got run yields
  rw [List.nil_append] at got
  have bounded := scattering_bounded first.length second.length
  have moved : (scattering first.length second.length).movedBy answers = r.1.got.length := by
    rw [got]
    exact movedBy_eq (first.length + second.length) answers
  have le := run.le_total bounded (Nat.zero_le _)
  rw [Nat.zero_add, moved] at le
  refine ⟨answers, run, got, yields.unread, ?_, ?_, ?_, ?_⟩
  · have short : (r.1.got.drop first.length).take second.length = r.1.got.drop first.length := by
      apply List.take_of_length_le
      rw [List.length_drop]
      exact Nat.sub_le_of_le_add (Nat.add_comm _ _ ▸ le)
    rw [placeEach_eq, ← got, place_cons, place_cons, short]
    rfl
  · rw [run.ok_iff bounded (Nat.zero_le _), Nat.zero_add, moved]
    rfl
  · intro e
    rw [run.error_iff bounded e, Nat.zero_add, moved]
    rfl
  · intro before a after split stop
    have moved_before : (scattering first.length second.length).movedBy before = _ :=
      movedBy_eq (first.length + second.length) before
    apply (run.at_call split).2
    rw [Nat.zero_add, moved_before]
    exact stop

/-- A stream that serves all buffers of a call at once fills two buffers as it fills one of their
common length. -/
theorem readScattered_eq_readExact {s : Source} (gathers : s.gathers = true) (first second : Nat) :
    (s.readScattered first second).1 = (s.readExact (first + second)).1 ∧
      { (s.readScattered first second).2 with calls := [] } =
        { (s.readExact (first + second)).2 with calls := [] } := by
  obtain ⟨answers, got, run⟩ := s.readRestScattered_run (advance [first, second] 0) (first + second) []
    rfl rfl
  obtain ⟨answers', got', run'⟩ := s.readRest_run (first + second) []
  have start : s.gathers = true ∧ { s with calls := [] } = { s with calls := [] } := ⟨gathers, rfl⟩
  obtain ⟨rfl, result, -, same⟩ := run.agrees
    (R := fun s s' => s.gathers = true ∧ { s with calls := [] } = { s' with calls := [] })
    (f := (exacting (first + second)).call) (fun k s s' more ⟨gathers, same⟩ => by
      have room : (Call.spread (advance [first, second] k)).room s.gathers =
          (Call.plain (first + second - k)).room s'.gathers := by
        rw [gathers]
        show capacity (advance [first, second] k) = first + second - k
        rw [capacity_advance]
        rfl
      obtain ⟨answer, after⟩ := read_congr same room
      refine ⟨answer, ?_, after⟩
      exact (read_yields (a := (s.read _).1) (t := (s.read _).2) rfl).1.gathers.trans gathers)
    run' start
  refine ⟨?_, same⟩
  have got : (s.readScattered first second).1.got = (s.readExact (first + second)).1.got :=
    got.trans got'.symm
  have result : (s.readScattered first second).1.result = (s.readExact (first + second)).1.result :=
    result
  generalize (s.readScattered first second).1 = filled at got result
  generalize (s.readExact (first + second)).1 = filled' at got result
  obtain ⟨bytes, ends⟩ := filled
  obtain rfl : bytes = filled'.got := got
  obtain rfl : ends = filled'.result := result
  rfl

/-- Whatever a stream answers, reading into two buffers puts the bytes that it takes into the first
and then the second one, and ends with the first answer that stops it. It makes no call for buffers
without room, and is no different from reading into one buffer where a call may serve both. -/
theorem readScattered_exact (s : Source) (first second : Bytes) :
    let r := s.readScattered first.length second.length
    let whole := s.readExact (first.length + second.length)
    (∃ answers, s.FillsBoth first second answers r.1 r.2) ∧
    (∀ cause, r.1.result = .error (.io cause) → cause.kind ≠ .interrupted) ∧
    (first = [] → second = [] → r = (⟨[], .ok ()⟩, s)) ∧
    (s.gathers = true → r.1 = whole.1 ∧ { r.2 with calls := [] } = { whole.2 with calls := [] }) := by
  intro r whole
  obtain ⟨answers, fills⟩ := s.readScattered_fillsBoth first second
  refine ⟨⟨answers, fills⟩, ?_, ?_, ?_⟩
  · intro cause failed
    obtain ⟨before, last, -, stop⟩ := (fills.error_iff (.io cause)).mp failed
    exact ReadAnswer.kind_of_stop? stop
  · rintro rfl rfl
    simp only [r, readScattered]
    rw [readRestScattered]
    rfl
  · intro gathers
    exact readScattered_eq_readExact gathers first.length second.length

def haltingSource : Source where
  unread := [1, 2, 3, 4, 5]
  turns := [.move 1, .fail (.bare .interrupted), .move 3, .fail (.numbered 11)]

theorem readScattered_exact_haltingSource :
    haltingSource.gathers = true ∧
      (haltingSource.readScattered 2 3).1.result = .error (.timedOut 5 4) ∧
      (haltingSource.readScattered 2 3).1 = (haltingSource.readExact 5).1 ∧
      ∃ answers, placeEach [[8, 8], [9, 9, 9]] 0 answers = [[1, 2], [3, 4, 9]] ∧
        haltingSource.FillsBoth [8, 8] [9, 9, 9] answers (haltingSource.readScattered 2 3).1
          (haltingSource.readScattered 2 3).2 := by
  obtain ⟨⟨answers, fills⟩, -, -, alike⟩ := readScattered_exact haltingSource [8, 8] [9, 9, 9]
  have got : (haltingSource.readScattered 2 3).1.got = [1, 2, 3, 4] := by decide +kernel
  have placed := fills.placed
  have stopped : (haltingSource.readScattered 2 3).1.result = .error (.timedOut 5 4) := by
    decide +kernel
  refine ⟨rfl, stopped, (alike rfl).1, answers, ?_, fills⟩
  rw [placed]
  show [(haltingSource.readScattered 2 3).1.got.take 2 ++ _, _] = _
  simp only [List.length_cons, List.length_nil, Nat.zero_add, Nat.reduceAdd, got]
  rfl

end Source

end ModuleLink
