import ModuleLink.DeadlineReads
import ModuleLink.Proofs.ReadLoops

/-! # Waits that keep to their time

A wait asks the system for whole milliseconds, rounded up, and for no more than the system can be asked
for. What it gets then is taken for the whole time. So a wait keeps to its time, however the system
interrupts or wakes it, exactly if it is not longer than the system can be asked for at once. -/
namespace ModuleLink

/-- A system that says that nothing came only when it has waited as long as it was asked to. -/
def Poll.Honest (poll : Poll) : Prop :=
  ∀ asked took, poll asked = .expired took → ∃ ms, asked = some ms ∧ ms * 1000000 ≤ took.nanos

namespace Span

def Askable (d : Span) : Prop := d.nanos ≤ longestPoll * 1000000

def Passed (deadline : Option Span) (now : Span) : Prop := ∃ d ∈ deadline, d.nanos ≤ now.nanos

def after (now : Span) (answers : List PollAnswer) : Span :=
  answers.foldl (fun t answer => ⟨t.nanos + answer.took.nanos⟩) now

variable {deadline : Option Span} {now later : Span}

theorem Passed.mono (h : Passed deadline now) (le : now.nanos ≤ later.nanos) :
    Passed deadline later := by
  obtain ⟨d, hd, passed⟩ := h
  exact ⟨d, hd, Nat.le_trans passed le⟩

theorem askable_later (askable : ∀ left ∈ Span.until deadline now, left.Askable)
    (le : now.nanos ≤ later.nanos) : ∀ left ∈ Span.until deadline later, left.Askable := by
  intro left hl
  obtain ⟨d, hd, rfl⟩ := Option.map_eq_some_iff.mp hl
  exact Nat.le_trans (Nat.sub_le_sub_left le _) (askable _ (Option.map_eq_some_iff.mpr ⟨d, hd, rfl⟩))

theorem until_fromNow (timeout : Option Span) (now : Span) :
    Span.until (fromNow timeout now) now = timeout := by
  cases timeout with
  | none => rfl
  | some t => exact congrArg (fun n => some (Span.mk n)) (Nat.add_sub_cancel_left ..)

theorem askable_until_fromNow {timeout : Option Span} (askable : ∀ d ∈ timeout, d.Askable)
    (now : Span) : ∀ left ∈ Span.until (fromNow timeout now) now, left.Askable := by
  rwa [until_fromNow]

theorem le_after (now : Span) (answers : List PollAnswer) : now.nanos ≤ (now.after answers).nanos := by
  induction answers generalizing now with
  | nil => exact Nat.le_refl _
  | cons answer answers ih =>
    exact Nat.le_trans (Nat.le_add_right ..) (ih ⟨now.nanos + answer.took.nanos⟩)

end Span

/-- Rounding up loses nothing, and the limit loses something exactly if more was left. -/
theorem le_pollMillis_iff (left : Span) :
    left.nanos ≤ pollMillis left * 1000000 ↔ left.Askable := by
  simp only [pollMillis, Span.ceilMillis, Span.Askable]
  omega

theorem askedAt_eq (deadline : Option Span) (now : Span) :
    askedAt deadline now = (Span.until deadline now).map pollMillis := by
  rw [askedAt, Span.until, Option.map_map]
  rfl

def PollAnswer.ends : PollAnswer → Option (Except SystemError (Option Nat))
  | failed _ cause => some (.error cause)
  | expired _ => some (.ok none)
  | interrupted _ => none
  | woken _ ready => (ready.findIdx? id).map fun index => .ok (some index)

theorem PollAnswer.ends_in_vain_iff {answer : PollAnswer} :
    answer.ends = some (.ok none) ↔ ∃ took, answer = .expired took := by
  cases answer with
  | failed took cause => exact ⟨nofun, nofun⟩
  | expired took => exact ⟨fun _ => ⟨took, rfl⟩, fun _ => rfl⟩
  | interrupted took => exact ⟨nofun, nofun⟩
  | woken took ready =>
    simp only [ends, Option.map_eq_some_iff]
    exact ⟨nofun, nofun⟩

theorem PollAnswer.ends_with_error_iff {answer : PollAnswer} {cause : SystemError} :
    answer.ends = some (.error cause) ↔ ∃ took, answer = .failed took cause := by
  cases answer with
  | failed took e => exact ⟨fun h => ⟨took, by cases h; rfl⟩, fun ⟨_, h⟩ => by cases h; rfl⟩
  | expired took => exact ⟨nofun, nofun⟩
  | interrupted took => exact ⟨nofun, nofun⟩
  | woken took ready =>
    simp only [ends, Option.map_eq_some_iff]
    exact ⟨nofun, nofun⟩

theorem waitReadable_cons (deadline : Option Span) (now : Span) (answer : PollAnswer)
    (answers : List PollAnswer) :
    waitReadable deadline now (answer :: answers) =
      let later : Span := ⟨now.nanos + answer.took.nanos⟩
      match answer.ends with
      | some result => ⟨[askedAt deadline now], later, some result⟩
      | none =>
        let rest := waitReadable deadline later answers
        { rest with asked := askedAt deadline now :: rest.asked } := by
  cases answer with
  | failed | expired | interrupted => rfl
  | woken took ready =>
    simp only [waitReadable, PollAnswer.ends]
    cases ready.findIdx? id <;> rfl

variable {deadline timeout : Option Span} {now : Span} {polls : List Poll}

theorem le_now_waitReadable (deadline : Option Span) (now : Span) (answers : List PollAnswer) :
    now.nanos ≤ (waitReadable deadline now answers).now.nanos := by
  induction answers generalizing now with
  | nil => exact Nat.le_refl _
  | cons answer answers ih =>
    rw [waitReadable_cons]
    cases answer.ends with
    | some result => exact Nat.le_add_right ..
    | none => exact Nat.le_trans (Nat.le_add_right ..) (ih ⟨now.nanos + answer.took.nanos⟩)

/-- What the system is asked for each time depends on the time that is left then. -/
theorem asked_waitReadable {answers : List PollAnswer} {i : Nat} {asked : Option Nat}
    (h : (waitReadable deadline now answers).asked[i]? = some asked) :
    asked = askedAt deadline (now.after (answers.take i)) := by
  induction answers generalizing now i with
  | nil => cases h
  | cons answer answers ih =>
    rw [waitReadable_cons] at h
    cases i with
    | zero =>
      cases ends : answer.ends with
      | some result =>
        rw [ends] at h
        exact (Option.some.inj h).symm
      | none =>
        rw [ends] at h
        exact (Option.some.inj h).symm
    | succ i =>
      cases ends : answer.ends with
      | some result =>
        rw [ends] at h
        cases h
      | none =>
        rw [ends] at h
        exact ih h

/-- A wait ends with the answer of the system that ends it, to what it was asked for then. -/
theorem waitReadable_ends {result : Except SystemError (Option Nat)}
    (h : (waitReadable deadline now (pollAnswers deadline now polls)).result = some result) :
    ∃ poll ∈ polls, ∃ asks : Span, now.nanos ≤ asks.nanos ∧
      (poll (askedAt deadline asks)).ends = some result ∧
      (waitReadable deadline now (pollAnswers deadline now polls)).now =
        ⟨asks.nanos + (poll (askedAt deadline asks)).took.nanos⟩ := by
  induction polls generalizing now with
  | nil => cases h
  | cons poll polls ih =>
    rw [pollAnswers] at h ⊢
    rw [waitReadable_cons] at h ⊢
    cases ends : (poll (askedAt deadline now)).ends with
    | none =>
      rw [ends] at h
      obtain ⟨other, later, asks, le, last, ending⟩ := ih h
      exact ⟨other, List.mem_cons_of_mem _ later, asks,
        Nat.le_trans (Nat.le_add_right ..) le, last, ending⟩
    | some first =>
      rw [ends] at h
      exact ⟨poll, List.mem_cons_self .., now, Nat.le_refl _, ends.trans h, rfl⟩

/-- A wait that the system can be asked for ends in vain only when its time is over. -/
theorem passed_of_waitReadable (honest : ∀ poll ∈ polls, poll.Honest)
    (askable : ∀ left ∈ Span.until deadline now, left.Askable)
    (h : (waitReadable deadline now (pollAnswers deadline now polls)).result = some (.ok none)) :
    Span.Passed deadline (waitReadable deadline now (pollAnswers deadline now polls)).now := by
  obtain ⟨poll, hp, asks, le, ends, ending⟩ := waitReadable_ends h
  obtain ⟨took, expired⟩ := PollAnswer.ends_in_vain_iff.mp ends
  obtain ⟨ms, asked, waited⟩ := honest poll hp _ took expired
  obtain ⟨d, hd, rfl⟩ := Option.map_eq_some_iff.mp asked
  have fits := Span.askable_later askable le _ (Option.map_eq_some_iff.mpr ⟨d, hd, rfl⟩)
  have whole := (le_pollMillis_iff _).mpr fits
  refine ⟨d, hd, ?_⟩
  rw [ending, expired]
  show d.nanos ≤ asks.nanos + took.nanos
  dsimp only at whole
  omega

theorem failed_of_waitReadable {cause : SystemError}
    (h : (waitReadable deadline now (pollAnswers deadline now polls)).result = some (.error cause)) :
    ∃ poll ∈ polls, ∃ asked took, poll asked = .failed took cause := by
  obtain ⟨poll, hp, asks, -, ends, -⟩ := waitReadable_ends h
  obtain ⟨took, failed⟩ := PollAnswer.ends_with_error_iff.mp ends
  exact ⟨poll, hp, _, took, failed⟩

theorem passed_of_waitFor (honest : ∀ poll ∈ polls, poll.Honest) (askable : ∀ t ∈ timeout, t.Askable)
    (h : (waitFor timeout now polls).result = some (.ok none)) :
    Span.Passed (Span.fromNow timeout now) (waitFor timeout now polls).now :=
  passed_of_waitReadable honest (Span.askable_until_fromNow askable now) h

/-! ### Reads -/

def SystemError.isLate (cause : SystemError) : Prop := cause.kind = .wouldBlock ∨ cause.kind = .timedOut

/-- Neither the system nor the stream says by itself that a time is over. -/
structure Moment.Sincere (m : Moment) : Prop where
  honest : ∀ poll ∈ m.polls, poll.Honest
  waits : ∀ poll ∈ m.polls, ∀ asked took cause, poll asked = .failed took cause → ¬ cause.isLate
  reads : ∀ cause, m.turn = .fail cause → ¬ cause.isLate

variable {m : Moment} {ms : List Moment} {turn : Turn} {ending : Span} {cause : SystemError}

/-- A read fails with an error of the system's or as one that is late when its wait ends, or else it
comes to what the stream does then. -/
theorem Moment.comesTo_cases (h : m.comesTo deadline now = some (turn, ending)) :
    (∃ cause, (m.wait deadline now).result = some (.error cause) ∧ turn = .fail cause ∧
        ending = (m.wait deadline now).now) ∨
      ((m.wait deadline now).result = some (.ok none) ∧ turn = .fail (.bare .timedOut) ∧
        ending = (m.wait deadline now).now) ∨
      ∃ index, (m.wait deadline now).result = some (.ok (some index)) ∧ turn = m.turn ∧
        ending = ⟨(m.wait deadline now).now.nanos + m.took.nanos⟩ := by
  simp only [comesTo] at h
  split at h
  · cases h
  · rename_i cause result
    obtain ⟨rfl, rfl⟩ := Prod.mk.inj (Option.some.inj h)
    exact .inl ⟨cause, result, rfl, rfl⟩
  · rename_i result
    obtain ⟨rfl, rfl⟩ := Prod.mk.inj (Option.some.inj h)
    exact .inr (.inl ⟨result, rfl, rfl⟩)
  · rename_i index result
    obtain ⟨rfl, rfl⟩ := Prod.mk.inj (Option.some.inj h)
    exact .inr (.inr ⟨index, result, rfl, rfl⟩)

theorem Moment.le_comesTo (h : m.comesTo deadline now = some (turn, ending)) :
    now.nanos ≤ ending.nanos := by
  have waited : now.nanos ≤ (m.wait deadline now).now.nanos :=
    Nat.le_trans (Nat.le_add_right ..) (le_now_waitReadable _ _ _)
  obtain ⟨_, -, -, rfl⟩ | ⟨-, -, rfl⟩ | ⟨_, -, -, rfl⟩ := m.comesTo_cases h
  · exact waited
  · exact waited
  · exact Nat.le_trans waited (Nat.le_add_right ..)

/-- A read that waits for a time that can be asked for is late only behind its deadline. -/
theorem Moment.Sincere.passed (sincere : m.Sincere)
    (askable : ∀ left ∈ Span.until deadline now, left.Askable)
    (h : m.comesTo deadline now = some (.fail cause, ending)) (late : cause.isLate) :
    Span.Passed deadline ending := by
  obtain ⟨error, failed, same, rfl⟩ | ⟨expired, -, rfl⟩ | ⟨_, -, same, -⟩ := m.comesTo_cases h
  · obtain rfl := Turn.fail.inj same
    obtain ⟨poll, hp, asked, took, failed⟩ := failed_of_waitReadable failed
    exact absurd late (sincere.waits poll hp asked took _ failed)
  · obtain ⟨e, he, passed⟩ := passed_of_waitFor sincere.honest askable expired
    simp only [Span.fromNow, Span.until, Option.map_map, Option.mem_def, Option.map_eq_some_iff] at he
    obtain ⟨d, hd, rfl⟩ := he
    refine ⟨d, hd, ?_⟩
    simp only [Function.comp_apply] at passed
    show d.nanos ≤ (waitFor _ _ _).now.nanos
    omega
  · exact absurd late (sincere.reads cause same.symm)

/-- An entry of a script is the first read or is of the script that begins when this is over. -/
theorem readScript_cons {i : Nat} {out : Turn × Span}
    (h : (readScript deadline now (m :: ms))[i]? = some out) :
    ∃ (first : Turn) (next : Span), m.comesTo deadline now = some (first, next) ∧
      (out = (first, next) ∨ ∃ j : Nat, (readScript deadline next ms)[j]? = some out) := by
  simp only [readScript] at h
  split at h
  · cases h
  · rename_i first next comes
    refine ⟨first, next, comes, ?_⟩
    cases i with
    | zero => exact .inl (Option.some.inj h).symm
    | succ i => exact .inr ⟨i, h⟩

theorem le_readScript {i : Nat} (h : (readScript deadline now ms)[i]? = some (turn, ending)) :
    now.nanos ≤ ending.nanos := by
  induction ms generalizing now i with
  | nil => cases h
  | cons m ms ih =>
    obtain ⟨first, next, comes, same | ⟨j, later⟩⟩ := readScript_cons h
    · cases same
      exact m.le_comesTo comes
    · exact Nat.le_trans (m.le_comesTo comes) (ih later)

/-- In a script the reads are late only behind the deadline. -/
theorem passed_of_readScript {i : Nat} (sincere : ∀ m ∈ ms, m.Sincere)
    (askable : ∀ left ∈ Span.until deadline now, left.Askable)
    (h : (readScript deadline now ms)[i]? = some (.fail cause, ending)) (late : cause.isLate) :
    Span.Passed deadline ending := by
  induction ms generalizing now i with
  | nil => cases h
  | cons m ms ih =>
    obtain ⟨trusted, sincere⟩ := List.forall_mem_cons.mp sincere
    obtain ⟨first, next, comes, same | ⟨j, later⟩⟩ := readScript_cons h
    · cases same
      exact trusted.passed askable comes late
    · exact ih sincere (Span.askable_later askable (m.le_comesTo comes)) later

theorem Source.turn_of_failed {s t : Source} {call : Call} (h : s.read call = (.failed cause, t))
    (ended : s.exhaustion = .ended) : s.turns.head? = some (.fail cause) := by
  have hands : ∀ (u : Source) (most : Nat), u.exhaustion = .ended →
      u.hand most ≠ (.failed cause, t) := by
    intro u most he hu
    rw [hand, if_neg (by simp [he])] at hu
    cases hu
  unfold read at h
  dsimp only at h
  split at h
  · exact absurd h (hands _ _ ended)
  · exact absurd h (hands _ _ ended)
  · rename_i turns ht
    obtain ⟨same, -⟩ := Prod.mk.inj h
    rw [ht, ReadAnswer.failed.inj same]
    rfl

namespace DeadlineReader

variable {r : DeadlineReader} {call : Call}

theorem read_eq (call : Call) (h : m.comesTo r.deadline r.now = some (turn, ending)) :
    (r.read m call).1 = some ((r.inner.scripted [turn]).read call).1 ∧
      (r.read m call).2.now = ending ∧
      (r.read m call).2.inner.unread = ((r.inner.scripted [turn]).read call).2.unread := by
  obtain ⟨cause, failed, rfl, rfl⟩ | ⟨expired, rfl, rfl⟩ | ⟨index, ready, rfl, rfl⟩ := m.comesTo_cases h
  · rw [read, failed]
    exact ⟨rfl, rfl, rfl⟩
  · rw [read, expired]
    exact ⟨rfl, rfl, rfl⟩
  · rw [read, ready]
    dsimp only
    rcases (r.inner.scripted [m.turn]).read call with ⟨got | cause, inner⟩ <;> exact ⟨rfl, rfl, rfl⟩

theorem read_eq_none (h : m.comesTo r.deadline r.now = none) : r.read m call = (none, r) := by
  simp only [Moment.comesTo] at h
  split at h
  · simp only [read, ‹(m.wait r.deadline r.now).result = none›]
  all_goals cases h

/-- A read for which the time that is left can be asked for is late only behind its deadline. -/
theorem passed_of_read (sincere : m.Sincere)
    (askable : ∀ left ∈ Span.until r.deadline r.now, left.Askable)
    (h : (r.read m call).1 = some (.failed cause)) (late : cause.isLate) :
    Span.Passed r.deadline (r.read m call).2.now := by
  cases hm : m.comesTo r.deadline r.now with
  | none =>
    rw [read_eq_none hm] at h
    cases h
  | some out =>
    obtain ⟨turn, ending⟩ := out
    obtain ⟨answer, now, -⟩ := read_eq call hm
    have failed : ((r.inner.scripted [turn]).read call).1 = .failed cause :=
      Option.some.inj (answer.symm.trans h)
    have next := Source.turn_of_failed (Prod.ext failed rfl) rfl
    obtain rfl : turn = .fail cause := Option.some.inj next
    rw [now]
    exact sincere.passed askable hm late

end DeadlineReader

end ModuleLink
