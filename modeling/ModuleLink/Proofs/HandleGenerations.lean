import ModuleLink.ReferenceTable

/-! # Which handles a table of references honours

A history lists every call that was made on a table, with its answer. It says by itself what each
slot holds and how often the slot was released; a handle opens its slot exactly if the slot holds
something and the number of releases agrees with the generation of the handle. -/
namespace ModuleLink

variable {α : Type}

inductive TableCall (α : Type)
  | acquire (entry : α)
  | get (h : Handle)
  | modify (h : Handle) (edit : α → α)
  | release (h : Handle)

def TableCall.handle? : TableCall α → Option Handle
  | acquire _ => none
  | get h | modify h _ | release h => some h

inductive TableStep (α : Type)
  | acquired (entry : α) (h : Handle)
  | got (h : Handle) (entry : α)
  | modified (h : Handle) (edit : α → α)
  | released (h : Handle) (entry : α)
  | refused (c : TableCall α) (e : PeerError)

namespace TableStep

def slot? : TableStep α → Option Nat
  | acquired _ h | modified h _ | released h _ => some h.index
  | got .. | refused .. => none

def put : TableStep α → Option α → Option α
  | acquired entry _, _ => some entry
  | modified _ edit, held => held.map edit
  | released .., _ => none
  | got .., held | refused .., held => held

def isRelease : TableStep α → Bool
  | released .. => true
  | _ => false

def edited (slot : Nat) : TableStep α → α → α
  | modified h edit, entry => if h.index = slot then edit entry else entry
  | _, entry => entry

end TableStep

def releasesOf (slot : Nat) (past : List (TableStep α)) : Nat :=
  past.countP fun s => s.slot? = some slot && s.isRelease

/-- What a slot holds: the entry that was put there last, with the edits since then. -/
def entryOf (slot : Nat) (past : List (TableStep α)) : Option α :=
  past.foldl (fun held s => if s.slot? = some slot then s.put held else held) none

/-- The slot holds this entry, and it was released as often as the handle says, as far as a
generation can tell. -/
def Opens (past : List (TableStep α)) (h : Handle) (entry : α) : Prop :=
  entryOf h.index past = some entry ∧ releasesOf h.index past % UInt32.size = h.generation.toNat

/-- How a call is answered after a history. -/
inductive Answered (past : List (TableStep α)) : TableCall α → TableStep α → Prop
  | acquired {h : Handle} (entry : α) (vacant : entryOf h.index past = none)
      (generation : releasesOf h.index past % UInt32.size = h.generation.toNat) :
      Answered past (.acquire entry) (.acquired entry h)
  | got {h : Handle} {entry : α} (opens : Opens past h entry) :
      Answered past (.get h) (.got h entry)
  | modified {h : Handle} {entry : α} (edit : α → α) (opens : Opens past h entry) :
      Answered past (.modify h edit) (.modified h edit)
  | released {h : Handle} {entry : α} (opens : Opens past h entry) :
      Answered past (.release h) (.released h entry)
  | refused {c : TableCall α} {h : Handle} (through : c.handle? = some h)
      (shut : ∀ entry, ¬ Opens past h entry) : Answered past c (.refused c (.staleReference h))

namespace ReferenceTable

def call (t : ReferenceTable α) : TableCall α → TableStep α × ReferenceTable α
  | .acquire entry => (.acquired entry (t.acquire entry).1, (t.acquire entry).2)
  | .get h =>
    match t.get h with
    | .ok entry => (.got h entry, t)
    | .error e => (.refused (.get h) e, t)
  | .modify h edit =>
    match t.modify h edit with
    | .ok u => (.modified h edit, u)
    | .error e => (.refused (.modify h edit) e, t)
  | .release h =>
    match t.release h with
    | .ok (entry, u) => (.released h entry, u)
    | .error e => (.refused (.release h) e, t)

end ReferenceTable

inductive TableHistory : List (TableStep α) → ReferenceTable α → Prop
  | new : TableHistory [] {}
  | call {past : List (TableStep α)} {t : ReferenceTable α} (h : TableHistory past t)
      (c : TableCall α) : TableHistory (past ++ [(t.call c).1]) (t.call c).2

theorem releasesOf_append (slot : Nat) (past after : List (TableStep α)) :
    releasesOf slot (past ++ after) = releasesOf slot past + releasesOf slot after :=
  List.countP_append

theorem releasesOf_cons (slot : Nat) (s : TableStep α) (past : List (TableStep α)) :
    releasesOf slot (s :: past) = releasesOf slot past + releasesOf slot [s] := by
  rw [← List.singleton_append, releasesOf_append, Nat.add_comm]

theorem releasesOf_singleton (slot : Nat) (s : TableStep α) :
    releasesOf slot [s] = if s.slot? = some slot ∧ s.isRelease then 1 else 0 := by
  simp [releasesOf, List.countP_singleton]

theorem entryOf_concat (slot : Nat) (past : List (TableStep α)) (s : TableStep α) :
    entryOf slot (past ++ [s]) =
      if s.slot? = some slot then s.put (entryOf slot past) else entryOf slot past := by
  simp [entryOf]

theorem releasesOf_concat_of_ne {slot : Nat} {s : TableStep α} (h : s.slot? ≠ some slot)
    (past : List (TableStep α)) : releasesOf slot (past ++ [s]) = releasesOf slot past := by
  simp [releasesOf_append, releasesOf_singleton, h]

theorem entryOf_concat_of_ne {slot : Nat} {s : TableStep α} (h : s.slot? ≠ some slot)
    (past : List (TableStep α)) : entryOf slot (past ++ [s]) = entryOf slot past := by
  rw [entryOf_concat, if_neg h]

theorem releasesOf_pos {h : Handle} {entry : α} {past : List (TableStep α)}
    (hm : .released h entry ∈ past) : 0 < releasesOf h.index past := by
  refine List.countP_pos_iff.mpr ⟨_, hm, ?_⟩
  simp [TableStep.slot?, TableStep.isRelease]

namespace ReferenceTable

/-- Every slot of a table is what the history says of it. -/
structure Records (t : ReferenceTable α) (past : List (TableStep α)) : Prop where
  slots : ∀ i slot, t.slots[i]? = some slot →
    slot = Slot.mk (.ofNat (releasesOf i past)) (entryOf i past)
  beyond : ∀ i, t.slots.length ≤ i → releasesOf i past = 0 ∧ entryOf i past = none
  vacant : ∀ i ∈ t.vacant, i < t.slots.length ∧ entryOf i past = none
  nodup : t.vacant.Nodup

variable {t : ReferenceTable α} {past : List (TableStep α)}

theorem Records.slot_lt (r : t.Records past) {i : Nat} {entry : α}
    (h : entryOf i past = some entry) : i < t.slots.length := by
  rcases Nat.lt_or_ge i t.slots.length with hl | hl
  · exact hl
  · rw [(r.beyond i hl).2] at h
    cases h

theorem Records.getElem? (r : t.Records past) {i : Nat} (h : i < t.slots.length) :
    t.slots[i]? = some (Slot.mk (.ofNat (releasesOf i past)) (entryOf i past)) := by
  have found := List.getElem?_eq_getElem h
  rw [found, r.slots i _ found]

theorem generation_eq_iff (n : Nat) (g : UInt32) :
    UInt32.ofNat n = g ↔ n % UInt32.size = g.toNat := by
  rw [← UInt32.toNat_inj, UInt32.toNat_ofNat']

theorem Records.get?_eq_some_iff (r : t.Records past) (h : Handle) (entry : α) :
    t.get? h = some entry ↔ Opens past h entry := by
  simp only [get?, Opens]
  rcases Nat.lt_or_ge h.index t.slots.length with hl | hl
  · rw [r.getElem? hl]
    dsimp only
    rw [← generation_eq_iff]
    by_cases hg : UInt32.ofNat (releasesOf h.index past) = h.generation
    · simp [hg]
    · simp [hg]
  · rw [List.getElem?_eq_none hl, (r.beyond h.index hl).2]
    simp

theorem Records.get_eq_ok_iff (r : t.Records past) (h : Handle) (entry : α) :
    t.get h = .ok entry ↔ Opens past h entry := by
  rw [← r.get?_eq_some_iff, get]
  cases t.get? h <;> simp

/-- A handle reaches the entry of a slot that is at its generation. -/
theorem getElem?_of_get {h : Handle} {entry : α} (got : t.get h = .ok entry) :
    t.slots[h.index]? = some ⟨h.generation, some entry⟩ := by
  simp only [get, get?] at got
  cases there : t.slots[h.index]? with
  | none =>
    rw [there] at got
    cases got
  | some slot =>
    obtain ⟨generation, held⟩ := slot
    rw [there] at got
    dsimp only at got
    by_cases current : generation = h.generation
    · rw [if_pos current] at got
      cases held with
      | none => cases got
      | some found =>
        obtain rfl : found = entry := Except.ok.inj got
        rw [current]
    · rw [if_neg current] at got
      cases got

theorem get_error {h : Handle} {e : PeerError} (he : t.get h = .error e) :
    e = .staleReference h := by
  unfold get at he
  cases hg : t.get? h with
  | none =>
    rw [hg] at he
    exact (Except.error.inj he).symm
  | some entry =>
    rw [hg] at he
    cases he

theorem Records.shut (r : t.Records past) {h : Handle} {e : PeerError}
    (he : t.get h = .error e) (entry : α) : ¬ Opens past h entry := by
  intro opens
  rw [(r.get_eq_ok_iff h entry).mpr opens] at he
  cases he

theorem Records.keep (r : t.Records past) {s : TableStep α} (hs : s.slot? = none) :
    t.Records (past ++ [s]) := by
  have other : ∀ i, s.slot? ≠ some i := fun i h => absurd (hs.symm.trans h) nofun
  refine ⟨fun i slot h => ?_, fun i h => ?_, fun i h => ?_, r.nodup⟩
  · rw [releasesOf_concat_of_ne (other i), entryOf_concat_of_ne (other i)]
    exact r.slots i slot h
  · rw [releasesOf_concat_of_ne (other i), entryOf_concat_of_ne (other i)]
    exact r.beyond i h
  · rw [entryOf_concat_of_ne (other i)]
    exact r.vacant i h

theorem Records.set (r : t.Records past) {s : TableStep α} {i : Nat} {slot : Slot α}
    {vacant : List Nat} {live : Nat} (hi : i < t.slots.length) (hs : s.slot? = some i)
    (hslot : slot = Slot.mk (.ofNat (releasesOf i (past ++ [s]))) (entryOf i (past ++ [s])))
    (hvacant : ∀ j ∈ vacant, j < t.slots.length ∧ entryOf j (past ++ [s]) = none)
    (nodup : vacant.Nodup) :
    ({ slots := t.slots.set i slot, vacant, live } : ReferenceTable α).Records (past ++ [s]) := by
  have other : ∀ j, j ≠ i → s.slot? ≠ some j := by
    intro j hj h
    exact hj (Option.some.inj (h.symm.trans hs))
  refine ⟨fun j slot' h => ?_, fun j h => ?_, fun j h => ?_, nodup⟩
  · by_cases hj : j = i
    · subst hj
      rw [List.getElem?_set_self hi] at h
      rw [← Option.some.inj h, hslot]
    · rw [List.getElem?_set_ne (Ne.symm hj)] at h
      rw [releasesOf_concat_of_ne (other j hj), entryOf_concat_of_ne (other j hj)]
      exact r.slots j slot' h
  · rw [List.length_set] at h
    have hj : j ≠ i := fun e => Nat.not_lt.mpr h (e ▸ hi)
    rw [releasesOf_concat_of_ne (other j hj), entryOf_concat_of_ne (other j hj)]
    exact r.beyond j h
  · rw [List.length_set]
    exact hvacant j h

theorem Records.vacant_concat (r : t.Records past) {s : TableStep α} {i j : Nat}
    (hs : s.slot? = some i) (hj : j ∈ t.vacant) (hne : i ≠ j) :
    j < t.slots.length ∧ entryOf j (past ++ [s]) = none := by
  have other : s.slot? ≠ some j := fun h => hne (Option.some.inj (hs.symm.trans h))
  obtain ⟨hl, empty⟩ := r.vacant j hj
  exact ⟨hl, by rwa [entryOf_concat_of_ne other]⟩

theorem Records.ne_of_vacant (r : t.Records past) {h : Handle} {entry : α}
    (opens : Opens past h entry) {i : Nat} (hi : i ∈ t.vacant) : h.index ≠ i := by
  rintro rfl
  exact absurd ((r.vacant _ hi).2.symm.trans opens.1) nofun

theorem acquire_of_full (hv : t.vacant = []) (entry : α) :
    t.acquire entry = (⟨t.slots.length, 0⟩,
      { slots := t.slots ++ [⟨0, some entry⟩], vacant := [], live := t.live + 1 }) := by
  simp only [acquire]
  rw [hv]

theorem Records.acquire_of_vacant (r : t.Records past) {i : Nat} {vacant : List Nat}
    (hv : t.vacant = i :: vacant) (entry : α) :
    t.acquire entry = (⟨i, .ofNat (releasesOf i past)⟩,
      { slots := t.slots.set i ⟨.ofNat (releasesOf i past), some entry⟩, vacant,
        live := t.live + 1 }) := by
  have hi := (r.vacant i (by simp [hv])).1
  simp only [acquire]
  rw [hv]
  simp only [r.getElem? hi, Option.map_some, Option.getD_some]

/-- The handle of a new entry fits the slot that the entry is put into. -/
theorem Records.acquired (r : t.Records past) (entry : α) :
    entryOf (t.acquire entry).1.index past = none ∧
      (t.acquire entry).1.generation = .ofNat (releasesOf (t.acquire entry).1.index past) := by
  cases hv : t.vacant with
  | nil =>
    obtain ⟨releases, empty⟩ := r.beyond t.slots.length (Nat.le_refl _)
    rw [acquire_of_full hv]
    dsimp only
    rw [releases]
    exact ⟨empty, rfl⟩
  | cons i vacant =>
    rw [r.acquire_of_vacant hv]
    exact ⟨(r.vacant i (by simp [hv])).2, rfl⟩

theorem Records.acquire (r : t.Records past) (entry : α) :
    (t.acquire entry).2.Records (past ++ [.acquired entry (t.acquire entry).1]) := by
  cases hv : t.vacant with
  | nil =>
    rw [acquire_of_full hv]
    dsimp only
    generalize hs : TableStep.acquired entry ⟨t.slots.length, 0⟩ = s
    have own : s.slot? = some t.slots.length := hs ▸ rfl
    have other : ∀ j, j ≠ t.slots.length → s.slot? ≠ some j :=
      fun j hj h => hj (Option.some.inj (h.symm.trans own))
    obtain ⟨releases, -⟩ := r.beyond t.slots.length (Nat.le_refl _)
    refine ⟨fun j slot h => ?_, fun j h => ?_, nofun, List.nodup_nil⟩
    · by_cases hj : j = t.slots.length
      · subst hj hs
        obtain rfl : ⟨0, some entry⟩ = slot := by simpa using h
        simp [releasesOf_append, releasesOf_singleton, releases, entryOf_concat, TableStep.slot?,
          TableStep.isRelease, TableStep.put]
      · rw [releasesOf_concat_of_ne (other j hj), entryOf_concat_of_ne (other j hj)]
        refine r.slots j slot ?_
        obtain ⟨hl, -⟩ := List.getElem?_eq_some_iff.mp h
        rw [List.length_append, List.length_singleton] at hl
        rwa [List.getElem?_append_left (by omega)] at h
    · rw [List.length_append, List.length_singleton] at h
      have hj : j ≠ t.slots.length := by omega
      rw [releasesOf_concat_of_ne (other j hj), entryOf_concat_of_ne (other j hj)]
      exact r.beyond j (by omega)
  | cons i vacant =>
    rw [r.acquire_of_vacant hv]
    dsimp only
    obtain ⟨fresh, nodup⟩ := List.nodup_cons.mp (hv ▸ r.nodup)
    refine r.set (r.vacant i (by simp [hv])).1 rfl ?_ (fun j hj => ?_) nodup
    · simp [releasesOf_append, releasesOf_singleton, entryOf_concat, TableStep.slot?,
        TableStep.isRelease, TableStep.put]
    · exact r.vacant_concat rfl (by simp [hv, hj]) fun e : i = j => fresh (e ▸ hj)

theorem Records.modify (r : t.Records past) {h : Handle} {entry : α} (opens : Opens past h entry)
    (edit : α → α) :
    ∃ u, t.modify h edit = .ok u ∧ u.Records (past ++ [.modified h edit]) := by
  have found := (r.get_eq_ok_iff h entry).mpr opens
  refine ⟨_, by simp only [ReferenceTable.modify, found]; rfl, ?_⟩
  refine r.set (r.slot_lt opens.1) rfl ?_ (fun i hi => ?_) r.nodup
  · have generation := (generation_eq_iff _ _).mpr opens.2
    rw [← generation]
    simp [releasesOf_append, releasesOf_singleton, entryOf_concat, TableStep.slot?,
      TableStep.isRelease, TableStep.put, opens.1]
  · exact r.vacant_concat rfl hi (r.ne_of_vacant opens hi)

theorem Records.release (r : t.Records past) {h : Handle} {entry : α}
    (opens : Opens past h entry) :
    ∃ u, t.release h = .ok (entry, u) ∧ u.Records (past ++ [.released h entry]) := by
  have found := (r.get_eq_ok_iff h entry).mpr opens
  refine ⟨_, by simp only [ReferenceTable.release, found]; rfl, ?_⟩
  refine r.set (r.slot_lt opens.1) rfl ?_ (fun i hi => ?_) ?_
  · have generation := (generation_eq_iff _ _).mpr opens.2
    rw [← generation]
    simp [releasesOf_append, releasesOf_singleton, entryOf_concat, TableStep.slot?,
      TableStep.isRelease, TableStep.put, UInt32.ofNat_add]
  · rcases List.mem_cons.mp hi with rfl | hi
    · exact ⟨r.slot_lt opens.1, by simp [entryOf_concat, TableStep.slot?, TableStep.put]⟩
    · exact r.vacant_concat rfl hi (r.ne_of_vacant opens hi)
  · exact List.nodup_cons.mpr ⟨fun hi => r.ne_of_vacant opens hi rfl, r.nodup⟩

/-- What one call does to a table whose history is known. -/
theorem Records.call (r : t.Records past) (c : TableCall α) :
    Answered past c (t.call c).1 ∧ (t.call c).2.Records (past ++ [(t.call c).1]) ∧
      ((t.call c).1.slot? = none → (t.call c).2 = t) := by
  cases c with
  | acquire entry =>
    obtain ⟨vacant, generation⟩ := r.acquired entry
    refine ⟨.acquired entry vacant ?_, r.acquire entry, nofun⟩
    exact (generation_eq_iff _ _).mp generation.symm
  | get h =>
    simp only [ReferenceTable.call]
    cases hg : t.get h with
    | ok entry => exact ⟨.got ((r.get_eq_ok_iff h entry).mp hg), r.keep rfl, fun _ => rfl⟩
    | error e =>
      obtain rfl := get_error hg
      exact ⟨.refused rfl (r.shut hg), r.keep rfl, fun _ => rfl⟩
  | modify h edit =>
    simp only [ReferenceTable.call]
    cases hg : t.get h with
    | ok entry =>
      have opens := (r.get_eq_ok_iff h entry).mp hg
      obtain ⟨u, hu, records⟩ := r.modify opens edit
      rw [hu]
      exact ⟨.modified edit opens, records, nofun⟩
    | error e =>
      obtain rfl := get_error hg
      have refused : t.modify h edit = .error (.staleReference h) := by
        simp only [ReferenceTable.modify, hg]
        rfl
      rw [refused]
      exact ⟨.refused rfl (r.shut hg), r.keep rfl, fun _ => rfl⟩
  | release h =>
    simp only [ReferenceTable.call]
    cases hg : t.get h with
    | ok entry =>
      have opens := (r.get_eq_ok_iff h entry).mp hg
      obtain ⟨u, hu, records⟩ := r.release opens
      rw [hu]
      exact ⟨.released opens, records, nofun⟩
    | error e =>
      obtain rfl := get_error hg
      have refused : t.release h = .error (.staleReference h) := by
        simp only [ReferenceTable.release, hg]
        rfl
      rw [refused]
      exact ⟨.refused rfl (r.shut hg), r.keep rfl, fun _ => rfl⟩

end ReferenceTable

namespace TableHistory

variable {past : List (TableStep α)} {t : ReferenceTable α}

theorem records (h : TableHistory past t) : t.Records past := by
  induction h with
  | new => exact ⟨nofun, fun _ _ => ⟨rfl, rfl⟩, nofun, List.nodup_nil⟩
  | call _ c ih => exact (ih.call c).2.1

/-- The end of a history is its last step, and the rest was a history before. -/
private theorem last_step {before after : List (TableStep α)} {s last : TableStep α}
    (hp : before ++ s :: after = past ++ [last]) :
    (after = [] ∧ before = past ∧ s = last) ∨
      ∃ middle, after = middle ++ [last] ∧ before ++ s :: middle = past := by
  rcases List.eq_nil_or_concat after with rfl | ⟨middle, end', rfl⟩
  · obtain ⟨rfl, hs⟩ := List.append_inj' hp rfl
    exact .inl ⟨rfl, rfl, (List.cons.inj hs).1⟩
  · rw [List.concat_eq_append, ← List.cons_append, ← List.append_assoc] at hp
    obtain ⟨rfl, hs⟩ := List.append_inj' hp rfl
    obtain rfl := (List.cons.inj hs).1
    exact .inr ⟨middle, List.concat_eq_append, rfl⟩

/-- Every step of a history was the answer to a call after the history before it. -/
theorem answered {before after : List (TableStep α)} {s : TableStep α}
    (h : TableHistory (before ++ s :: after) t) :
    ∃ u c, TableHistory before u ∧ Answered before c s := by
  generalize hp : before ++ s :: after = past at h
  induction h generalizing after with
  | new => simp at hp
  | call earlier c ih =>
    obtain ⟨rfl, rfl, rfl⟩ | ⟨middle, rfl, hm⟩ := last_step hp
    · exact ⟨_, c, earlier, (earlier.records.call c).1⟩
    · exact ih hm

end TableHistory

theorem Opens.acquired {past : List (TableStep α)} {h : Handle} (entry : α)
    (generation : releasesOf h.index past % UInt32.size = h.generation.toNat) :
    Opens (past ++ [.acquired entry h]) h entry := by
  simpa [Opens, entryOf_concat, releasesOf_append, releasesOf_singleton, TableStep.slot?,
    TableStep.put, TableStep.isRelease] using generation

theorem Opens.handle_eq {past : List (TableStep α)} {g h : Handle} {entry held : α}
    (opens : Opens past g entry) (opens' : Opens past h held) (index : g.index = h.index) :
    g = h := by
  have generation : g.generation = h.generation := by
    rw [← UInt32.toNat_inj, ← opens.2, ← opens'.2, index]
  cases g
  cases h
  rw [Handle.mk.injEq]
  exact ⟨index, generation⟩

/-- A handle stays open at any step but its own release. -/
theorem Opens.step {past : List (TableStep α)} {h : Handle} {entry : α} {c : TableCall α}
    {s : TableStep α} (opens : Opens past h entry) (answer : Answered past c s)
    (kept : ∀ e, s ≠ .released h e) : Opens (past ++ [s]) h (s.edited h.index entry) := by
  have still (hs : s.slot? ≠ some h.index) : Opens (past ++ [s]) h entry := by
    unfold Opens
    rwa [entryOf_concat_of_ne hs, releasesOf_concat_of_ne hs]
  cases answer with
  | acquired new vacant _ =>
    refine still fun hs => ?_
    rw [Option.some.inj hs, opens.1] at vacant
    cases vacant
  | got | refused => exact still nofun
  | @modified g _ edit _ =>
    by_cases hi : g.index = h.index
    · simp [Opens, entryOf_concat, releasesOf_append, releasesOf_singleton, TableStep.slot?,
        TableStep.put, TableStep.isRelease, TableStep.edited, hi, opens.1, opens.2]
    · simp only [TableStep.edited, hi, if_false]
      exact still fun hs => hi (Option.some.inj hs)
  | @released g e opens' =>
    refine still fun hs => kept e ?_
    rw [opens'.handle_eq opens (Option.some.inj hs)]

namespace TableHistory

variable {past : List (TableStep α)} {t : ReferenceTable α}

/-- From its acquisition to its release a handle opens its entry, with the edits made meanwhile. -/
theorem opens_until_released {before after : List (TableStep α)} {entry : α} {h : Handle}
    (run : TableHistory (before ++ .acquired entry h :: after) t) (kept : ∀ e, .released h e ∉ after) :
    Opens (before ++ .acquired entry h :: after) h
      (after.foldl (fun e s => s.edited h.index e) entry) := by
  generalize hp : before ++ .acquired entry h :: after = past at run
  induction run generalizing after with
  | new => simp at hp
  | call earlier c ih =>
    have answer := (earlier.records.call c).1
    obtain ⟨rfl, rfl, hs⟩ | ⟨middle, rfl, hm⟩ := last_step hp
    · rw [← hs] at answer ⊢
      cases answer with
      | acquired _ _ generation => exact .acquired entry generation
    · have opens := ih (fun e he => kept e (List.mem_append_left _ he)) hm
      rw [List.foldl_append]
      exact opens.step answer fun e he => kept e (by simp [he])

/-- After a handle was given out, only the releases of its slot since then count. -/
theorem opens_iff {before after : List (TableStep α)} {entry : α} {h : Handle}
    (run : TableHistory (before ++ .acquired entry h :: after) t) (held : α) :
    Opens (before ++ .acquired entry h :: after) h held ↔
      entryOf h.index (before ++ .acquired entry h :: after) = some held ∧
        UInt32.size ∣ releasesOf h.index after := by
  obtain ⟨-, c, -, answer⟩ := run.answered
  cases answer with
  | acquired _ _ generation =>
    have own : releasesOf h.index [TableStep.acquired entry h] = 0 := by
      simp [releasesOf_singleton, TableStep.isRelease]
    simp only [Opens]
    rw [releasesOf_append, releasesOf_cons, own, ← generation]
    refine and_congr_right fun _ => ?_
    simp only [UInt32.size]
    omega

/-- An access succeeds exactly if its slot holds something and was released as often as the handle
says, up to the width of a generation, and it reaches what the slot holds. Hence a handle works from
its acquisition to its release, is not given out twice in between, and is refused after its release
until its slot was released so often that the generations have come round. -/
theorem unforgeable (run : TableHistory past t) :
    (∀ c, Answered past c (t.call c).1 ∧ ((t.call c).1.slot? = none → (t.call c).2 = t)) ∧
    (∀ i, t.capacity ≤ i → entryOf i past = none) ∧
    (∀ before entry h after, past = before ++ .acquired entry h :: after →
      ((∀ e, .released h e ∉ after) →
        Opens past h (after.foldl (fun e s => s.edited h.index e) entry)) ∧
      (∀ middle again rest, after = middle ++ .acquired again h :: rest →
        ∃ e, .released h e ∈ middle) ∧
      (∀ held, Opens past h held ↔
        entryOf h.index past = some held ∧ UInt32.size ∣ releasesOf h.index after) ∧
      ∀ e, .released h e ∈ after → releasesOf h.index after < UInt32.size →
        ∀ held, ¬ Opens past h held) := by
  have records := run.records
  refine ⟨fun c => ⟨(records.call c).1, (records.call c).2.2⟩, fun i hi => (records.beyond i hi).2,
    ?_⟩
  rintro before entry h after rfl
  refine ⟨run.opens_until_released, ?_, run.opens_iff, ?_⟩
  · rintro middle again rest rfl
    rw [← List.cons_append, ← List.append_assoc] at run
    obtain ⟨u, c, earlier, answer⟩ := run.answered
    refine Classical.byContradiction fun kept => ?_
    have opens := earlier.opens_until_released (not_exists.mp kept)
    cases answer with
    | acquired _ vacant _ => exact absurd (vacant.symm.trans opens.1) nofun
  · intro e he few held opens
    have some := releasesOf_pos he
    exact Nat.not_le.mpr few (Nat.le_of_dvd some ((run.opens_iff held).mp opens).2)

def recycledSlot : List (TableStep Nat) := [
  .acquired 7 ⟨0, 0⟩, .released ⟨0, 0⟩ 7, .acquired 8 ⟨0, 1⟩,
  .refused (.get ⟨0, 0⟩) (.staleReference ⟨0, 0⟩)]

theorem unforgeable_recycledSlot :
    TableHistory recycledSlot ⟨[⟨1, some 8⟩], [], 1⟩ ∧ Opens recycledSlot ⟨0, 1⟩ 8 ∧
      (∀ held, ¬ Opens recycledSlot ⟨0, 0⟩ held) ∧
      Answered recycledSlot (.release ⟨0, 1⟩) (.released ⟨0, 1⟩ 8) := by
  have run : TableHistory recycledSlot ⟨[⟨1, some 8⟩], [], 1⟩ :=
    ((((TableHistory.new.call (.acquire 7)).call (.release ⟨0, 0⟩)).call (.acquire 8)).call
      (.get ⟨0, 0⟩))
  obtain ⟨answers, -, handles⟩ := run.unforgeable
  obtain ⟨works, -⟩ := handles (recycledSlot.take 2) 8 ⟨0, 1⟩ (recycledSlot.drop 3) rfl
  obtain ⟨-, -, -, stale⟩ := handles [] 7 ⟨0, 0⟩ _ rfl
  refine ⟨run, works (by simp [recycledSlot]), stale 7 (by simp) (by decide), ?_⟩
  exact (answers (.release ⟨0, 1⟩)).1

end TableHistory

end ModuleLink
