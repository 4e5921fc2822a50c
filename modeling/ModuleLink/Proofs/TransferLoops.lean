/-! # Loops that move so much by calls on a stream

A loop calls, adds up what was moved and calls again, until all of it was moved or an answer stops
it. What comes of such a loop is read off the answers: it ends well exactly if they move everything,
it fails with what the last one stops it for, and nothing is called after that. -/
namespace ModuleLink

/-- A loop by how much it is to move, the call it makes once so much was moved, what an answer moves,
and which answers stop it. -/
structure Rounds (σ α ε : Type) where
  total : Nat
  call : Nat → σ → α × σ
  moved : α → Nat
  stop? : Nat → α → Option ε

namespace Rounds

variable {σ τ α ε : Type}

def movedBy (l : Rounds σ α ε) (answers : List α) : Nat :=
  answers.foldr (fun a n => l.moved a + n) 0

/-- The run of a loop that has moved so much already: the answers to its calls and how it ends. -/
inductive Run (l : Rounds σ α ε) : σ → Nat → List α → Except ε Unit → σ → Prop
  | done {s : σ} {k : Nat} (all : l.total ≤ k) : Run l s k [] (.ok ()) s
  | stops {s t : σ} {k : Nat} {a : α} {e : ε} (more : k < l.total) (answer : l.call k s = (a, t))
      (stop : l.stop? k a = some e) : Run l s k [a] (.error e) t
  | goesOn {s t u : σ} {k : Nat} {a : α} {answers : List α} {result : Except ε Unit}
      (more : k < l.total) (answer : l.call k s = (a, t)) (on : l.stop? k a = none)
      (rest : Run l t (k + l.moved a) answers result u) : Run l s k (a :: answers) result u

/-- No call moves more than is left to move, and an answer that stops the loop moves nothing. -/
structure Bounded (l : Rounds σ α ε) : Prop where
  within : ∀ k s, k < l.total → k + l.moved (l.call k s).1 ≤ l.total
  idle : ∀ k a e, l.stop? k a = some e → l.moved a = 0

variable {l : Rounds σ α ε} {s t : σ} {k : Nat} {answers : List α} {result : Except ε Unit}

@[simp] theorem movedBy_nil (l : Rounds σ α ε) : l.movedBy [] = 0 := rfl

@[simp] theorem movedBy_cons (l : Rounds σ α ε) (a : α) (answers : List α) :
    l.movedBy (a :: answers) = l.moved a + l.movedBy answers := rfl

namespace Run

theorem le_total (h : l.Run s k answers result t) (hl : l.Bounded) (hk : k ≤ l.total) :
    k + l.movedBy answers ≤ l.total := by
  induction h with
  | done => exact hk
  | @stops s t k a e more answer stop =>
    rw [movedBy_cons, hl.idle k a e stop, movedBy_nil]
    exact hk
  | @goesOn s t u k a answers result more answer on rest ih =>
    have first := hl.within k s more
    rw [answer] at first
    rw [movedBy_cons, ← Nat.add_assoc]
    exact ih first

/-- A loop ends well exactly if everything was moved. -/
theorem ok_iff (h : l.Run s k answers result t) (hl : l.Bounded) (hk : k ≤ l.total) :
    result = .ok () ↔ k + l.movedBy answers = l.total := by
  induction h with
  | done all =>
    rw [movedBy_nil]
    exact iff_of_true rfl (Nat.le_antisymm hk all)
  | @stops s t k a e more answer stop =>
    rw [movedBy_cons, hl.idle k a e stop, movedBy_nil]
    apply iff_of_false
    · exact nofun
    · exact Nat.ne_of_lt more
  | @goesOn s t u k a answers result more answer on rest ih =>
    have first := hl.within k s more
    rw [answer] at first
    rw [movedBy_cons, ← Nat.add_assoc]
    exact ih first

/-- A loop fails with what its last answer stops it for. -/
theorem error_iff (h : l.Run s k answers result t) (hl : l.Bounded) (e : ε) :
    result = .error e ↔
      ∃ before last, answers = before ++ [last] ∧ l.stop? (k + l.movedBy answers) last = some e := by
  induction h with
  | done =>
    apply iff_of_false
    · exact nofun
    · rintro ⟨before, last, split, -⟩
      exact absurd split.symm (List.append_ne_nil_of_right_ne_nil before (List.cons_ne_nil last []))
  | @stops s t k a e' more answer stop =>
    have moved : k + l.movedBy [a] = k := by
      rw [movedBy_cons, hl.idle k a e' stop, movedBy_nil, Nat.add_zero]
    rw [moved]
    constructor
    · intro same
      exact ⟨[], a, rfl, stop.trans (congrArg some (Except.error.inj same))⟩
    · rintro ⟨before, last, split, stop'⟩
      have split : [] ++ [a] = before ++ [last] := split
      obtain ⟨-, rfl⟩ := List.append_singleton_inj.mp split
      exact congrArg Except.error (Option.some.inj (stop.symm.trans stop'))
  | @goesOn s t u k a answers result more answer on rest ih =>
    rw [ih, movedBy_cons, ← Nat.add_assoc]
    constructor
    · rintro ⟨before, last, rfl, stop⟩
      exact ⟨a :: before, last, rfl, stop⟩
    · rintro ⟨before, last, split, stop⟩
      cases before with
      | nil =>
        -- An answer that would stop the loop after itself moved nothing, so it would have stopped it.
        obtain ⟨rfl, rfl⟩ := List.cons.inj split
        have idle := hl.idle _ _ _ stop
        rw [idle, movedBy_nil] at stop
        exact absurd (on.symm.trans stop) nofun
      | cons b before =>
        exact ⟨before, last, (List.cons.inj split).2, stop⟩

/-- What every call keeps holds at each call, with what was moved before it, and at the end. -/
theorem keeps {I : Nat → σ → Prop}
    (step : ∀ k s, k < l.total → I k s → I (k + l.moved (l.call k s).1) (l.call k s).2)
    (h : l.Run s k answers result t) (start : I k s) :
    I (k + l.movedBy answers) t ∧ ∀ before a after, answers = before ++ a :: after →
      ∃ u, I (k + l.movedBy before) u ∧ l.Run u (k + l.movedBy before) (a :: after) result t := by
  induction h with
  | done all =>
    refine ⟨start, ?_⟩
    intro before a after split
    exact absurd split.symm (List.append_ne_nil_of_right_ne_nil before (List.cons_ne_nil a after))
  | @stops s t k a e more answer stop =>
    have next := step k s more start
    rw [answer] at next
    refine ⟨next, ?_⟩
    intro before b after split
    cases before with
    | nil =>
      obtain ⟨rfl, rfl⟩ := List.cons.inj split
      exact ⟨s, start, .stops more answer stop⟩
    | cons c before =>
      have tail := (List.cons.inj split).2
      exact absurd tail.symm (List.append_ne_nil_of_right_ne_nil before (List.cons_ne_nil b after))
  | @goesOn s t u k a answers result more answer on rest ih =>
    have next := step k s more start
    rw [answer] at next
    obtain ⟨ends, passes⟩ := ih next
    rw [movedBy_cons, ← Nat.add_assoc]
    refine ⟨ends, ?_⟩
    intro before b after split
    cases before with
    | nil =>
      obtain ⟨rfl, rfl⟩ := List.cons.inj split
      exact ⟨s, start, .goesOn more answer on rest⟩
    | cons c before =>
      obtain ⟨rfl, tail⟩ := List.cons.inj split
      rw [movedBy_cons, ← Nat.add_assoc]
      exact passes before b after tail

/-- At every call something is left to move, and an answer that stops the loop is its last one. -/
theorem at_call (h : l.Run s k answers result t) {before after : List α} {a : α}
    (split : answers = before ++ a :: after) :
    k + l.movedBy before < l.total ∧ (l.stop? (k + l.movedBy before) a ≠ none → after = []) := by
  obtain ⟨u, -, rest⟩ :=
    (h.keeps (I := fun _ _ => True) (fun _ _ _ _ => trivial) trivial).2 before a after split
  cases rest with
  | stops more => exact ⟨more, fun _ => rfl⟩
  | goesOn more answer on => exact ⟨more, fun stop => absurd on stop⟩

/-- Two loops that differ in their calls alone, on streams that answer alike, run alike. -/
theorem agrees {f : Nat → τ → α × τ} {R : σ → τ → Prop}
    (alike : ∀ k s s', k < l.total → R s s' →
      (l.call k s).1 = (f k s').1 ∧ R (l.call k s).2 (f k s').2)
    (h : l.Run s k answers result t) {s' t' : τ} {answers' : List α} {result' : Except ε Unit}
    (h' : Run ⟨l.total, f, l.moved, l.stop?⟩ s' k answers' result' t') (start : R s s') :
    answers = answers' ∧ result = result' ∧ R t t' := by
  induction h generalizing s' answers' with
  | done all =>
    cases h' with
    | done => exact ⟨rfl, rfl, start⟩
    | stops more => exact absurd more (Nat.not_lt.mpr all)
    | goesOn more => exact absurd more (Nat.not_lt.mpr all)
  | @stops s t k a e more answer stop =>
    obtain ⟨same, next⟩ := alike k s s' more start
    rw [answer] at same next
    cases h' with
    | done all => exact absurd more (Nat.not_lt.mpr all)
    | stops more' answer' stop' =>
      dsimp only at answer' stop'
      rw [answer'] at same next
      obtain rfl : a = _ := same
      exact ⟨rfl, congrArg Except.error (Option.some.inj (stop.symm.trans stop')), next⟩
    | goesOn more' answer' on' =>
      dsimp only at answer' on'
      rw [answer'] at same
      obtain rfl : a = _ := same
      exact absurd (stop.symm.trans on') nofun
  | @goesOn s t u k a answers result more answer on rest ih =>
    obtain ⟨same, next⟩ := alike k s s' more start
    rw [answer] at same next
    cases h' with
    | done all => exact absurd more (Nat.not_lt.mpr all)
    | stops more' answer' stop' =>
      dsimp only at answer' stop'
      rw [answer'] at same
      obtain rfl : a = _ := same
      exact absurd (on.symm.trans stop') nofun
    | goesOn more' answer' on' rest' =>
      dsimp only at answer' rest'
      rw [answer'] at same next
      obtain rfl : a = _ := same
      obtain ⟨sameAnswers, sameResult, ends⟩ := ih rest' next
      exact ⟨congrArg (a :: ·) sameAnswers, sameResult, ends⟩

end Run

end Rounds

end ModuleLink
