import ModuleLink.ByteSources

/-! # What the read loops take off a stream

However a stream cuts up and interrupts its answers, a read loop takes its next bytes in order. It
ends with all of them, or with fewer and a reason. -/
namespace ModuleLink

def TransportError.stopsRead : TransportError → Bool
  | endOfStream .. | timedOut .. | io _ => true
  | _ => false

/-- A call that moves something, or is repeated at once. -/
def Turn.goesOn : Turn → Bool
  | move most => most ≠ 0
  | fail cause => cause.kind = .interrupted

def ReadAnswer.got : ReadAnswer → Bytes
  | .bytes got => got
  | .failed _ => []

@[simp] theorem capacity_nil : capacity [] = 0 := rfl

@[simp] theorem capacity_cons (n : Nat) (ns : List Nat) :
    capacity (n :: ns) = n + capacity ns := rfl

theorem le_capacity_of_mem {n : Nat} {ns : List Nat} (h : n ∈ ns) : n ≤ capacity ns := by
  induction ns with
  | nil => cases h
  | cons m ns ih =>
    rw [capacity_cons]
    rcases List.mem_cons.mp h with rfl | h
    · omega
    · have := ih h
      omega

theorem exists_of_capacity_pos {ns : List Nat} (h : 0 < capacity ns) : ∃ n ∈ ns, n ≠ 0 := by
  induction ns with
  | nil => cases h
  | cons n ns ih =>
    by_cases hn : n = 0
    · obtain ⟨m, hm, pos⟩ := ih (by rwa [capacity_cons, hn, Nat.zero_add] at h)
      exact ⟨m, List.mem_cons_of_mem _ hm, pos⟩
    · exact ⟨n, List.mem_cons_self .., hn⟩

theorem capacity_advance (ns : List Nat) (moved : Nat) :
    capacity (advance ns moved) = capacity ns - moved := by
  induction ns generalizing moved with
  | nil => simp [advance]
  | cons n ns ih =>
    simp only [advance]
    split
    · rw [ih, capacity_cons]
      omega
    · simp only [capacity_cons]
      omega

theorem advance_eq_nil_iff (ns : List Nat) (moved : Nat) :
    advance ns moved = [] ↔ capacity ns ≤ moved := by
  induction ns generalizing moved with
  | nil => simp [advance]
  | cons n ns ih =>
    simp only [advance]
    split
    · rw [ih, capacity_cons]
      omega
    · simp only [capacity_cons, reduceCtorEq, false_iff]
      omega

theorem capacity_advance_pos {ns : List Nat} {moved : Nat} (h : advance ns moved ≠ []) :
    0 < capacity (advance ns moved) := by
  have := mt (advance_eq_nil_iff ns moved).mpr h
  rw [capacity_advance]
  omega

theorem Call.room_spread_le (gathers : Bool) (lengths : List Nat) :
    (Call.spread lengths).room gathers ≤ capacity lengths := by
  cases gathers with
  | true => exact Nat.le_refl _
  | false =>
    show (lengths.find? (· ≠ 0)).getD 0 ≤ capacity lengths
    cases h : lengths.find? (· ≠ 0) with
    | none => exact Nat.zero_le _
    | some n => exact le_capacity_of_mem (List.mem_of_find?_eq_some h)

theorem Call.room_spread_pos (gathers : Bool) {lengths : List Nat} (h : 0 < capacity lengths) :
    0 < (Call.spread lengths).room gathers := by
  cases gathers with
  | true => exact h
  | false =>
    show 0 < (lengths.find? (· ≠ 0)).getD 0
    cases hf : lengths.find? (· ≠ 0) with
    | none =>
      have zeros : ∀ n ∈ lengths, n = 0 := by simpa using hf
      obtain ⟨n, hn, pos⟩ := exists_of_capacity_pos h
      exact absurd (zeros n hn) pos
    | some n =>
      have : n ≠ 0 := by simpa using List.find?_some hf
      exact Nat.pos_of_ne_zero this

namespace Source

/-- Calls that got these bytes off one stream left the other. -/
structure Yields (s : Source) (got : Bytes) (t : Source) : Prop where
  unread : s.unread = got ++ t.unread
  turns : t.turns <:+ s.turns
  gathers : t.gathers = s.gathers
  exhaustion : t.exhaustion = s.exhaustion

theorem Yields.refl (s : Source) : s.Yields [] s := ⟨rfl, List.suffix_refl _, rfl, rfl⟩

theorem Yields.trans {s t u : Source} {a b : Bytes} (h : s.Yields a t) (h' : t.Yields b u) :
    s.Yields (a ++ b) u where
  unread := by rw [h.unread, h'.unread, List.append_assoc]
  turns := h'.turns.trans h.turns
  gathers := h'.gathers.trans h.gathers
  exhaustion := h'.exhaustion.trans h.exhaustion

theorem Yields.length {s t : Source} {a : Bytes} (h : s.Yields a t) :
    s.unread.length - t.unread.length = a.length := by
  rw [h.unread, List.length_append]
  omega

theorem hand_yields (s : Source) (most : Nat) :
    s.Yields (s.hand most).1.got (s.hand most).2 := by
  simp only [hand]
  split
  · exact .refl s
  · exact ⟨(List.take_append_drop most s.unread).symm, List.suffix_refl _, rfl, rfl⟩

theorem length_hand_le (s : Source) (most : Nat) :
    (s.hand most).1.got.length ≤ most := by
  simp only [hand]
  split
  · exact Nat.zero_le _
  · exact List.length_take_le _ _

theorem read_yields {s t : Source} {c : Call} {a : ReadAnswer} (h : s.read c = (a, t)) :
    s.Yields a.got t ∧ a.got.length ≤ c.room s.gathers := by
  have asked : s.Yields [] { s with calls := s.calls ++ [c] } := ⟨rfl, List.suffix_refl _, rfl, rfl⟩
  unfold read at h
  dsimp only at h
  split at h
  · obtain ⟨rfl, rfl⟩ := Prod.mk.inj h.symm
    exact ⟨asked.trans (hand_yields _ _), length_hand_le _ _⟩
  · rename_i most turns ht
    obtain ⟨rfl, rfl⟩ := Prod.mk.inj h.symm
    have turned : s.Yields [] { s with turns, calls := s.calls ++ [c] } :=
      ⟨rfl, ht ▸ List.suffix_cons _ _, rfl, rfl⟩
    exact ⟨turned.trans (hand_yields _ _), Nat.le_trans (length_hand_le _ _) (Nat.min_le_right _ _)⟩
  · rename_i cause turns ht
    obtain ⟨rfl, rfl⟩ := Prod.mk.inj h.symm
    exact ⟨⟨rfl, ht ▸ List.suffix_cons _ _, rfl, rfl⟩, Nat.zero_le _⟩

theorem Yields.goesOn {s t : Source} {a : Bytes} (h : s.Yields a t)
    (hs : ∀ turn ∈ s.turns, turn.goesOn) : ∀ turn ∈ t.turns, turn.goesOn :=
  fun turn ht => hs turn (h.turns.subset ht)

theorem hand_of_unread {s : Source} {most : Nat} (hu : s.unread ≠ []) (hm : 0 < most) :
    ∃ b bs, (s.hand most).1 = .bytes (b :: bs) := by
  obtain ⟨b, rest, hb⟩ := List.exists_cons_of_ne_nil hu
  obtain ⟨n, rfl⟩ := Nat.exists_eq_succ_of_ne_zero (Nat.ne_of_gt hm)
  exact ⟨b, rest.take n, by simp [hand, hb]⟩

/-- A call that goes on, on a stream with bytes left, gets some of them or is repeated. -/
theorem read_goesOn {s t : Source} {c : Call} {a : ReadAnswer} (h : s.read c = (a, t))
    (hs : ∀ turn ∈ s.turns, turn.goesOn) (hu : s.unread ≠ []) (hc : 0 < c.room s.gathers) :
    (∃ b bs, a = .bytes (b :: bs)) ∨ ∃ cause, a = .failed cause ∧ cause.kind = .interrupted := by
  unfold read at h
  dsimp only at h
  split at h
  · obtain ⟨rfl, -⟩ := Prod.mk.inj h.symm
    exact .inl (hand_of_unread hu hc)
  · rename_i most turns ht
    obtain ⟨rfl, -⟩ := Prod.mk.inj h.symm
    have hm : most ≠ 0 := by simpa [Turn.goesOn] using hs (.move most) (by simp [ht])
    exact .inl (hand_of_unread hu (by omega))
  · rename_i cause turns ht
    obtain ⟨rfl, -⟩ := Prod.mk.inj h.symm
    have hk : cause.kind = .interrupted := by
      simpa [Turn.goesOn] using hs (.fail cause) (by simp [ht])
    exact .inr ⟨cause, rfl, hk⟩

/-- How a loop that wants so many bytes may end. -/
structure Fills (s : Source) (length : Nat) (filled : Filled) (t : Source) : Prop where
  yields : s.Yields filled.got t
  full : filled.result = .ok () → filled.got.length = length
  short : ∀ e, filled.result = .error e → filled.got.length < length ∧ e.stopsRead

theorem stopsRead_readFailure (cause : SystemError) (expected received : Nat) :
    (readFailure cause expected received).stopsRead := by
  simp only [readFailure]
  split <;> rfl

/-- The loop over one buffer keeps what it got before. -/
theorem readRest_yields (s : Source) (expected : Nat) (got : Bytes) :
    ∃ more, (s.readRest expected got).1.got = got ++ more ∧
      s.Yields more (s.readRest expected got).2 := by
  fun_induction readRest s expected got with
  | case1 s got _ t h => exact ⟨[], by simp, (read_yields h).1⟩
  | case2 s got _ b bs t h ih =>
    obtain ⟨more, hg, hy⟩ := ih
    exact ⟨b :: bs ++ more, by rw [hg, List.append_assoc], (read_yields h).1.trans hy⟩
  | case3 s got _ cause t h _ ih =>
    obtain ⟨more, hg, hy⟩ := ih
    exact ⟨more, hg, (read_yields h).1.trans hy⟩
  | case4 s got _ cause t h => exact ⟨[], by simp, (read_yields h).1⟩
  | case5 s got => exact ⟨[], by simp, .refl s⟩

theorem readRest_length (s : Source) (expected : Nat) (got : Bytes) (hg : got.length ≤ expected) :
    match (s.readRest expected got).1.result with
    | .ok () => (s.readRest expected got).1.got.length = expected
    | .error e => (s.readRest expected got).1.got.length < expected ∧ e.stopsRead := by
  fun_induction readRest s expected got with
  | case1 s got hlt t h => exact ⟨hlt, rfl⟩
  | case2 s got hlt b bs t h ih =>
    have room : (b :: bs).length ≤ expected - got.length := (read_yields h).2
    apply ih
    rw [List.length_append]
    omega
  | case3 s got _ cause t h _ ih => exact ih hg
  | case4 s got hlt cause t h => exact ⟨hlt, stopsRead_readFailure _ _ _⟩
  | case5 s got hlt => exact Nat.le_antisymm hg (Nat.not_lt.mp hlt)

theorem readExact_fills (s : Source) (length : Nat) :
    s.Fills length (s.readExact length).1 (s.readExact length).2 := by
  obtain ⟨more, hg, hy⟩ := s.readRest_yields length []
  have hl := s.readRest_length length [] (Nat.zero_le _)
  refine ⟨?_, ?_, ?_⟩
  · rw [readExact, hg]
    exact hy
  · intro h
    rw [readExact] at h ⊢
    simpa only [h] using hl
  · intro e h
    rw [readExact] at h ⊢
    simpa only [h] using hl

/-- A stream that holds all that is wanted, and goes on, gives it. -/
theorem readRest_goesOn (s : Source) (expected : Nat) (got : Bytes)
    (hs : ∀ turn ∈ s.turns, turn.goesOn) (hu : expected ≤ got.length + s.unread.length) :
    (s.readRest expected got).1.result = .ok () := by
  fun_induction readRest s expected got with
  | case1 s got hlt t h =>
    have left : s.unread ≠ [] := by rintro hn; simp [hn] at hu; omega
    obtain ⟨b, bs, hb⟩ | ⟨cause, hb, -⟩ := read_goesOn h hs left (Nat.sub_pos_of_lt hlt)
    · cases hb
    · cases hb
  | case2 s got _ b bs t h ih =>
    have hy := (read_yields h).1
    apply ih (hy.goesOn hs)
    rw [hy.unread] at hu
    simp only [ReadAnswer.got, List.length_append] at hu ⊢
    omega
  | case3 s got _ cause t h _ ih =>
    have hy := (read_yields h).1
    apply ih (hy.goesOn hs)
    rw [hy.unread] at hu
    simpa [ReadAnswer.got] using hu
  | case4 s got hlt cause t h hk =>
    have left : s.unread ≠ [] := by rintro hn; simp [hn] at hu; omega
    obtain ⟨b, bs, hb⟩ | ⟨cause', hb, hk'⟩ := read_goesOn h hs left (Nat.sub_pos_of_lt hlt)
    · cases hb
    · cases hb
      exact absurd hk' hk
  | case5 => rfl

theorem readRestScattered_yields (s : Source) (buffers : List Nat) (expected : Nat) (got : Bytes) :
    ∃ more, (s.readRestScattered buffers expected got).1.got = got ++ more ∧
      s.Yields more (s.readRestScattered buffers expected got).2 := by
  fun_induction readRestScattered s buffers expected got with
  | case1 s got => exact ⟨[], by simp, .refl s⟩
  | case2 s buffers got _ t h => exact ⟨[], by simp, (read_yields h).1⟩
  | case3 s buffers got _ b bs t h ih =>
    obtain ⟨more, hg, hy⟩ := ih
    exact ⟨b :: bs ++ more, by rw [hg, List.append_assoc], (read_yields h).1.trans hy⟩
  | case4 s buffers got _ cause t h _ ih =>
    obtain ⟨more, hg, hy⟩ := ih
    exact ⟨more, hg, (read_yields h).1.trans hy⟩
  | case5 s buffers got _ cause t h => exact ⟨[], by simp, (read_yields h).1⟩

/-- Buffers with room left start with one that has room. -/
theorem readRestScattered_length (s : Source) (buffers : List Nat) (expected : Nat) (got : Bytes)
    (hs : got.length + capacity buffers = expected) (hb : buffers ≠ [] → 0 < capacity buffers) :
    match (s.readRestScattered buffers expected got).1.result with
    | .ok () => (s.readRestScattered buffers expected got).1.got.length = expected
    | .error e =>
      (s.readRestScattered buffers expected got).1.got.length < expected ∧ e.stopsRead := by
  fun_induction readRestScattered s buffers expected got with
  | case1 s got => simpa using hs
  | case2 s buffers got hne t h =>
    have := hb hne
    exact ⟨by dsimp only; omega, rfl⟩
  | case3 s buffers got hne b bs t h ih =>
    have room : (b :: bs).length ≤ capacity buffers :=
      Nat.le_trans (read_yields h).2 (Call.room_spread_le _ _)
    apply ih _ capacity_advance_pos
    rw [List.length_append, capacity_advance]
    omega
  | case4 s buffers got _ cause t h _ ih => exact ih hs hb
  | case5 s buffers got hne cause t h =>
    have := hb hne
    exact ⟨by dsimp only; omega, stopsRead_readFailure _ _ _⟩

theorem readRestScattered_goesOn (s : Source) (buffers : List Nat) (expected : Nat) (got : Bytes)
    (hb : buffers ≠ [] → 0 < capacity buffers) (hs : ∀ turn ∈ s.turns, turn.goesOn)
    (hu : capacity buffers ≤ s.unread.length) :
    (s.readRestScattered buffers expected got).1.result = .ok () := by
  fun_induction readRestScattered s buffers expected got with
  | case1 => rfl
  | case2 s buffers got hne t h =>
    have pos := hb hne
    have left : s.unread ≠ [] := by rintro hn; simp [hn] at hu; omega
    obtain ⟨b, bs, ha⟩ | ⟨cause, ha, -⟩ :=
      read_goesOn h hs left (Call.room_spread_pos _ pos)
    · cases ha
    · cases ha
  | case3 s buffers got _ b bs t h ih =>
    have hy := (read_yields h).1
    apply ih capacity_advance_pos (hy.goesOn hs)
    rw [hy.unread] at hu
    simp only [ReadAnswer.got, List.length_append] at hu
    rw [capacity_advance]
    omega
  | case4 s buffers got _ cause t h _ ih =>
    have hy := (read_yields h).1
    apply ih hb (hy.goesOn hs)
    rw [hy.unread] at hu
    simpa [ReadAnswer.got] using hu
  | case5 s buffers got hne cause t h hk =>
    have pos := hb hne
    have left : s.unread ≠ [] := by rintro hn; simp [hn] at hu; omega
    obtain ⟨b, bs, ha⟩ | ⟨cause', ha, hk'⟩ :=
      read_goesOn h hs left (Call.room_spread_pos _ pos)
    · cases ha
    · cases ha
      exact absurd hk' hk

theorem readScattered_fills (s : Source) (first second : Nat) :
    s.Fills (first + second) (s.readScattered first second).1 (s.readScattered first second).2 := by
  obtain ⟨more, hg, hy⟩ :=
    s.readRestScattered_yields (advance [first, second] 0) (first + second) []
  have hl := s.readRestScattered_length (advance [first, second] 0) (first + second) []
    (by simp [capacity_advance]) capacity_advance_pos
  refine ⟨?_, ?_, ?_⟩
  · rw [readScattered, hg]
    exact hy
  · intro h
    rw [readScattered] at h ⊢
    simpa only [h] using hl
  · intro e h
    rw [readScattered] at h ⊢
    simpa only [h] using hl

/-- A call that goes on, on a stream that ends, gets nothing only when nothing is left. -/
theorem read_ended {s t : Source} {c : Call} {a : ReadAnswer} (h : s.read c = (a, t))
    (hs : ∀ turn ∈ s.turns, turn.goesOn) (he : s.exhaustion = .ended)
    (hc : 0 < c.room s.gathers) :
    (a = .bytes [] → t.unread = []) ∧ ∀ cause, a = .failed cause → cause.kind = .interrupted := by
  by_cases hu : s.unread = []
  · have left : t.unread = [] := by
      have hy := (read_yields h).1.unread
      rw [hu] at hy
      exact (List.append_eq_nil_iff.mp hy.symm).2
    refine ⟨fun _ => left, ?_⟩
    rintro cause rfl
    unfold read at h
    dsimp only at h
    split at h
    · simp [hand, he] at h
    · simp [hand, he] at h
    · rename_i cause' turns ht
      obtain ⟨e, -⟩ := Prod.mk.inj h
      obtain rfl := ReadAnswer.failed.inj e
      simpa [Turn.goesOn] using hs (.fail cause') (by simp [ht])
  · rcases read_goesOn h hs hu hc with ⟨b, bs, rfl⟩ | ⟨cause, rfl, hk⟩
    · exact ⟨nofun, nofun⟩
    · exact ⟨nofun, fun _ e => ReadAnswer.failed.inj e ▸ hk⟩

/-- On a stream that goes on until it ends, a loop fails only for want of bytes. -/
theorem readRest_ended (s : Source) (expected : Nat) (got : Bytes)
    (hs : ∀ turn ∈ s.turns, turn.goesOn) (he : s.exhaustion = .ended) :
    ∀ e, (s.readRest expected got).1.result = .error e →
      e = .endOfStream expected (s.readRest expected got).1.got.length ∧
        (s.readRest expected got).2.unread = [] := by
  fun_induction readRest s expected got with
  | case1 s got hlt t h =>
    intro e hr
    have left := (read_ended h hs he (Nat.sub_pos_of_lt hlt)).1 rfl
    exact ⟨(Except.error.inj hr).symm, left⟩
  | case2 s got _ b bs t h ih =>
    have hy := (read_yields h).1
    exact ih (hy.goesOn hs) (hy.exhaustion.trans he)
  | case3 s got _ cause t h _ ih =>
    have hy := (read_yields h).1
    exact ih (hy.goesOn hs) (hy.exhaustion.trans he)
  | case4 s got hlt cause t h hk =>
    exact absurd ((read_ended h hs he (Nat.sub_pos_of_lt hlt)).2 cause rfl) hk
  | case5 =>
    intro e hr
    cases hr

theorem readRestScattered_ended (s : Source) (buffers : List Nat) (expected : Nat) (got : Bytes)
    (hb : buffers ≠ [] → 0 < capacity buffers) (hs : ∀ turn ∈ s.turns, turn.goesOn)
    (he : s.exhaustion = .ended) :
    ∀ e, (s.readRestScattered buffers expected got).1.result = .error e →
      e = .endOfStream expected (s.readRestScattered buffers expected got).1.got.length ∧
        (s.readRestScattered buffers expected got).2.unread = [] := by
  fun_induction readRestScattered s buffers expected got with
  | case1 =>
    intro e hr
    cases hr
  | case2 s buffers got hne t h =>
    intro e hr
    have left := (read_ended h hs he (Call.room_spread_pos _ (hb hne))).1 rfl
    exact ⟨(Except.error.inj hr).symm, left⟩
  | case3 s buffers got _ b bs t h ih =>
    have hy := (read_yields h).1
    exact ih capacity_advance_pos (hy.goesOn hs) (hy.exhaustion.trans he)
  | case4 s buffers got _ cause t h _ ih =>
    have hy := (read_yields h).1
    exact ih hb (hy.goesOn hs) (hy.exhaustion.trans he)
  | case5 s buffers got hne cause t h hk =>
    exact absurd ((read_ended h hs he (Call.room_spread_pos _ (hb hne))).2 cause rfl) hk

theorem readExact_goesOn {s : Source} {length : Nat} (hs : ∀ turn ∈ s.turns, turn.goesOn)
    (hu : length ≤ s.unread.length) : (s.readExact length).1.result = .ok () :=
  s.readRest_goesOn length [] hs (by simpa using hu)

theorem readScattered_goesOn {s : Source} {first second : Nat}
    (hs : ∀ turn ∈ s.turns, turn.goesOn) (hu : first + second ≤ s.unread.length) :
    (s.readScattered first second).1.result = .ok () := by
  apply readRestScattered_goesOn _ _ _ _ capacity_advance_pos hs
  simpa [capacity_advance] using hu

/-- A loop that comes up short, on a stream that goes on until it ends, has taken all there was. -/
theorem Fills.cut {s t : Source} {length : Nat} {filled : Filled} (h : s.Fills length filled t)
    (hu : s.unread.length < length)
    (he : ∀ e, filled.result = .error e →
      e = .endOfStream length filled.got.length ∧ t.unread = []) :
    filled.result = .error (.endOfStream length s.unread.length) ∧ t.unread = [] := by
  have hy := h.yields.unread
  cases hr : filled.result with
  | ok =>
    have full := h.full hr
    rw [hy, List.length_append] at hu
    omega
  | error e =>
    obtain ⟨rfl, left⟩ := he e hr
    rw [left, List.append_nil] at hy
    exact ⟨by rw [hy], left⟩

theorem readExact_cut {s : Source} {length : Nat} (hs : ∀ turn ∈ s.turns, turn.goesOn)
    (he : s.exhaustion = .ended) (hu : s.unread.length < length) :
    (s.readExact length).1.result = .error (.endOfStream length s.unread.length) ∧
      (s.readExact length).2.unread = [] :=
  (s.readExact_fills length).cut hu (s.readRest_ended length [] hs he)

theorem readScattered_cut {s : Source} {first second : Nat} (hs : ∀ turn ∈ s.turns, turn.goesOn)
    (he : s.exhaustion = .ended) (hu : s.unread.length < first + second) :
    (s.readScattered first second).1.result =
        .error (.endOfStream (first + second) s.unread.length) ∧
      (s.readScattered first second).2.unread = [] :=
  (s.readScattered_fills first second).cut hu
    (s.readRestScattered_ended _ _ [] capacity_advance_pos hs he)

end Source

end ModuleLink
