import Mathlib.Order.Bounds.Basic
import ModuleLink.Proofs.HandleGenerations

/-! # What a table of references counts

A table keeps three accounts: its slots, the list of the vacant ones and the number of entries that it
holds. Every call changes all three in step. A slot is added only when every slot holds an entry, so a
table has as many slots as it ever held entries at the same time. -/
namespace ModuleLink

variable {α : Type}

def TableStep.isAcquisition : TableStep α → Bool
  | acquired .. => true
  | _ => false

def acquisitions (past : List (TableStep α)) : Nat := past.countP TableStep.isAcquisition

def releases (past : List (TableStep α)) : Nat := past.countP TableStep.isRelease

/-- How many entries were put into a table and not released since then. -/
def outstanding (past : List (TableStep α)) : Nat := acquisitions past - releases past

theorem acquisitions_concat (past : List (TableStep α)) (s : TableStep α) :
    acquisitions (past ++ [s]) = acquisitions past + if s.isAcquisition then 1 else 0 := by
  rw [acquisitions, List.countP_append, List.countP_singleton]
  rfl

theorem releases_concat (past : List (TableStep α)) (s : TableStep α) :
    releases (past ++ [s]) = releases past + if s.isRelease then 1 else 0 := by
  rw [releases, List.countP_append, List.countP_singleton]
  rfl

namespace ReferenceTable

def entries (t : ReferenceTable α) : List (Option α) := t.slots.map Slot.entry

theorem length_entries (t : ReferenceTable α) : t.entries.length = t.capacity := List.length_map _

variable {t u : ReferenceTable α}

theorem capacity_of_set {i : Nat} {entry : Option α} (entries : u.entries = t.entries.set i entry) :
    u.capacity = t.capacity := by
  rw [← length_entries, entries, List.length_set, length_entries]

/-- What a call does to the three accounts, by its answer. -/
inductive Changes (t u : ReferenceTable α) : TableStep α → Prop
  | fills {h : Handle} {entry : α} {i : Nat} (vacant : t.vacant = i :: u.vacant)
      (entries : u.entries = t.entries.set i (some entry)) (live : u.live = t.live + 1) :
      Changes t u (.acquired entry h)
  | grows {h : Handle} {entry : α} (full : t.vacant = []) (vacant : u.vacant = [])
      (entries : u.entries = t.entries ++ [some entry]) (live : u.live = t.live + 1) :
      Changes t u (.acquired entry h)
  | empties {h : Handle} {entry : α} (held : t.entries[h.index]? = some (some entry))
      (vacant : u.vacant = h.index :: t.vacant) (entries : u.entries = t.entries.set h.index none)
      (live : u.live = t.live - 1) : Changes t u (.released h entry)
  | edits {h : Handle} {entry : α} (edit : α → α) (held : t.entries[h.index]? = some (some entry))
      (vacant : u.vacant = t.vacant) (entries : u.entries = t.entries.set h.index (some (edit entry)))
      (live : u.live = t.live) : Changes t u (.modified h edit)
  | reads {h : Handle} {entry : α} (same : u = t) : Changes t u (.got h entry)
  | refuses {c : TableCall α} {e : PeerError} (same : u = t) : Changes t u (.refused c e)

theorem entries_of_get {h : Handle} {entry : α} (got : t.get h = .ok entry) :
    t.entries[h.index]? = some (some entry) := by
  rw [entries, List.getElem?_map, getElem?_of_get got]
  rfl

theorem call_changes (t : ReferenceTable α) (c : TableCall α) : t.Changes (t.call c).2 (t.call c).1 := by
  cases c with
  | acquire entry =>
    simp only [call, acquire]
    cases hv : t.vacant with
    | nil => exact .grows hv rfl (List.map_append ..) rfl
    | cons i vacant => exact .fills hv List.map_set rfl
  | get h =>
    simp only [call]
    cases t.get h with
    | ok entry => exact .reads rfl
    | error e => exact .refuses rfl
  | modify h edit =>
    simp only [call, modify]
    cases hg : t.get h with
    | ok entry => exact .edits edit (entries_of_get hg) rfl List.map_set rfl
    | error e => exact .refuses rfl
  | release h =>
    simp only [call, release]
    cases hg : t.get h with
    | ok entry => exact .empties (entries_of_get hg) rfl List.map_set rfl
    | error e => exact .refuses rfl

variable {s : TableStep α} {past : List (TableStep α)}

/-- The accounts of a table agree with each other and with its history. -/
structure Balanced (t : ReferenceTable α) (past : List (TableStep α)) : Prop where
  vacant : ∀ i, i ∈ t.vacant ↔ t.entries[i]? = some none
  nodup : t.vacant.Nodup
  live : t.live = t.entries.countP Option.isSome
  slots : t.live + t.vacant.length = t.capacity
  balance : acquisitions past = t.live + releases past
  peak : IsGreatest {n | ∃ before, before <+: past ∧ n = outstanding before} t.capacity

theorem Balanced.live_pos (b : t.Balanced past) {i : Nat} {entry : α}
    (held : t.entries[i]? = some (some entry)) : 0 < t.live := by
  rw [b.live, List.countP_pos_iff]
  exact ⟨_, List.mem_of_getElem? held, rfl⟩

theorem Changes.vacant (h : t.Changes u s) (b : t.Balanced past) :
    (∀ i, i ∈ u.vacant ↔ u.entries[i]? = some none) ∧ u.vacant.Nodup := by
  have vacant := b.vacant
  have nodup := b.nodup
  cases h with
  | @fills h entry i first entries live =>
    obtain ⟨fresh, nodup⟩ := List.nodup_cons.mp (first ▸ nodup)
    refine ⟨fun j => ?_, nodup⟩
    have other := vacant j
    rw [first, List.mem_cons] at other
    rw [entries, List.getElem?_set]
    by_cases hj : i = j
    · subst hj
      rw [if_pos rfl]
      split <;> simp [fresh]
    · rw [if_neg hj, ← other, or_iff_right (Ne.symm hj)]
  | grows full none entries live =>
    rw [none, entries]
    refine ⟨fun j => ?_, List.nodup_nil⟩
    have other := vacant j
    rw [full] at other
    rw [List.getElem?_append]
    split
    · exact other
    · simp [List.getElem?_singleton]
  | @empties h entry held more entries live =>
    have taken : h.index ∉ t.vacant := by
      rw [vacant, held]
      simp
    have inside := (List.getElem?_eq_some_iff.mp held).1
    rw [more, entries]
    refine ⟨fun j => ?_, List.nodup_cons.mpr ⟨taken, nodup⟩⟩
    rw [List.mem_cons, List.getElem?_set, vacant j]
    by_cases hj : h.index = j
    · simp [hj ▸ inside, hj]
    · rw [if_neg hj, or_iff_right (Ne.symm hj)]
  | @edits h entry edit held same entries live =>
    rw [same, entries]
    refine ⟨fun j => ?_, nodup⟩
    rw [List.getElem?_set, vacant j]
    by_cases hj : h.index = j
    · rw [if_pos hj, ← hj, held]
      split <;> simp
    · rw [if_neg hj]
  | reads same | refuses same =>
    subst same
    exact ⟨vacant, nodup⟩

theorem Changes.live (h : t.Changes u s) (b : t.Balanced past) :
    u.live = u.entries.countP Option.isSome := by
  cases h with
  | @fills h entry i vacant entries live =>
    have empty := (b.vacant i).mp (by simp [vacant])
    obtain ⟨hi, now⟩ := List.getElem?_eq_some_iff.mp empty
    rw [live, entries, List.countP_set hi, now, b.live]
    rfl
  | grows full vacant entries live =>
    rw [live, entries, List.countP_append, b.live]
    rfl
  | empties held vacant entries live =>
    obtain ⟨hi, now⟩ := List.getElem?_eq_some_iff.mp held
    rw [live, entries, List.countP_set hi, now, b.live]
    rfl
  | edits edit held vacant entries live =>
    obtain ⟨hi, now⟩ := List.getElem?_eq_some_iff.mp held
    have some := b.live_pos held
    rw [b.live] at some
    rw [live, entries, List.countP_set hi, now, b.live]
    exact (Nat.sub_add_cancel some).symm
  | reads same | refuses same => exact same ▸ b.live

theorem Changes.balance (h : t.Changes u s) (b : t.Balanced past) :
    acquisitions (past ++ [s]) = u.live + releases (past ++ [s]) := by
  rw [acquisitions_concat, releases_concat, b.balance]
  cases h with
  | fills vacant entries live | grows full vacant entries live =>
    simp only [TableStep.isAcquisition, TableStep.isRelease, live]
    exact Nat.add_right_comm ..
  | empties held vacant entries live =>
    have some := b.live_pos held
    simp only [TableStep.isAcquisition, TableStep.isRelease, live, if_true, Bool.false_eq_true,
      if_false]
    omega
  | edits edit held vacant entries live =>
    rw [live]
    rfl
  | reads same | refuses same =>
    rw [same]
    rfl

/-- A slot is added only if every slot is taken. -/
theorem Changes.capacity (h : t.Changes u s) (b : t.Balanced past) :
    u.live + u.vacant.length = u.capacity ∧
      (u.capacity = t.capacity ∨
        s.isAcquisition ∧ t.live = t.capacity ∧ u.live = u.capacity ∧
          u.capacity = t.capacity + 1) := by
  have slots := b.slots
  cases h with
  | fills vacant entries live =>
    have capacity := capacity_of_set entries
    rw [vacant, List.length_cons] at slots
    omega
  | grows full vacant entries live =>
    have capacity := congrArg List.length entries
    rw [List.length_append, length_entries, length_entries, List.length_singleton] at capacity
    rw [full, List.length_nil] at slots
    rw [vacant, List.length_nil]
    exact ⟨by omega, .inr ⟨rfl, by omega⟩⟩
  | empties held vacant entries live =>
    have capacity := capacity_of_set entries
    have some := b.live_pos held
    rw [vacant, List.length_cons]
    omega
  | edits edit held vacant entries live =>
    have capacity := capacity_of_set entries
    rw [vacant]
    omega
  | reads same | refuses same =>
    subst same
    exact ⟨slots, .inl rfl⟩

theorem outstanding_eq (balance : acquisitions past = t.live + releases past) :
    outstanding past = t.live := by
  rw [outstanding, balance, Nat.add_sub_cancel]

theorem Changes.peak (h : t.Changes u s) (b : t.Balanced past) :
    IsGreatest {n | ∃ before, before <+: past ++ [s] ∧ n = outstanding before} u.capacity := by
  obtain ⟨⟨top, earlier, most⟩, bound⟩ := b.peak
  obtain ⟨slots, same | ⟨-, -, full, more⟩⟩ := h.capacity b
  · refine ⟨⟨top, earlier.trans (List.prefix_append ..), same.trans most⟩, ?_⟩
    rintro _ ⟨before, within, rfl⟩
    rcases List.prefix_concat_iff.mp within with rfl | within
    · rw [outstanding_eq (h.balance b)]
      omega
    · exact same ▸ bound ⟨before, within, rfl⟩
  · refine ⟨⟨_, List.prefix_rfl, (outstanding_eq (h.balance b) ▸ full).symm⟩, ?_⟩
    rintro _ ⟨before, within, rfl⟩
    rcases List.prefix_concat_iff.mp within with rfl | within
    · rw [outstanding_eq (h.balance b)]
      omega
    · have := bound ⟨before, within, rfl⟩
      omega

theorem Changes.balanced (h : t.Changes u s) (b : t.Balanced past) : u.Balanced (past ++ [s]) where
  vacant := (h.vacant b).1
  nodup := (h.vacant b).2
  live := h.live b
  slots := (h.capacity b).1
  balance := h.balance b
  peak := h.peak b

end ReferenceTable

namespace TableHistory

open ReferenceTable

variable {past : List (TableStep α)} {t : ReferenceTable α}

theorem balanced (run : TableHistory past t) : t.Balanced past := by
  induction run with
  | new =>
    refine ⟨fun i => by simp [entries], List.nodup_nil, rfl, rfl, rfl,
      ⟨[], List.prefix_rfl, rfl⟩, ?_⟩
    rintro _ ⟨before, within, rfl⟩
    rw [List.prefix_nil.mp within]
    exact Nat.le_refl 0
  | call _ c ih => exact (call_changes _ c).balanced ih

/-- After any calls the vacant slots are listed, each once; the count of entries is the number of slots
that hold something, and of entries put in and not released; with the vacant slots it makes up the
capacity. The capacity is the largest number of entries that the table ever held at once, and a slot is
added only to take a new entry when every slot is taken. -/
theorem accounts_agree (run : TableHistory past t) :
    t.vacant.Nodup ∧
    (∀ i, i ∈ t.vacant ↔ ∃ slot, t.slots[i]? = some slot ∧ slot.entry = none) ∧
    t.live = t.slots.countP (·.entry.isSome) ∧
    acquisitions past = t.live + releases past ∧
    t.live + t.vacant.length = t.capacity ∧
    IsGreatest {n | ∃ before, before <+: past ∧ n = outstanding before} t.capacity ∧
    ∀ c, (t.call c).2.capacity = t.capacity ∨
      (∃ entry, c = .acquire entry) ∧ (∀ slot ∈ t.slots, slot.entry.isSome) ∧
        (t.call c).2.capacity = t.capacity + 1 := by
  have b := run.balanced
  have live : t.live = t.slots.countP (·.entry.isSome) := by
    rw [b.live, entries, List.countP_map]
    rfl
  refine ⟨b.nodup, fun i => ?_, live, b.balance, b.slots, b.peak, fun c => ?_⟩
  · rw [b.vacant, entries, List.getElem?_map, Option.map_eq_some_iff]
  · obtain ⟨-, same | ⟨acquires, full, -, more⟩⟩ := (call_changes t c).capacity b
    · exact .inl same
    · refine .inr ⟨?_, List.countP_eq_length.mp (live.symm.trans full), more⟩
      have answer := (run.records.call c).1
      generalize (t.call c).1 = s at answer acquires
      cases answer with
      | acquired entry => exact ⟨entry, rfl⟩
      | got | modified | released | refused => cases acquires

def comings : List (TableStep Nat) := [
  .acquired 7 ⟨0, 0⟩, .acquired 8 ⟨1, 0⟩, .released ⟨0, 0⟩ 7,
  .refused (.release ⟨0, 0⟩) (.staleReference ⟨0, 0⟩), .acquired 9 ⟨0, 1⟩, .released ⟨1, 0⟩ 8]

theorem accounts_agree_comings :
    TableHistory comings ⟨[⟨1, some 9⟩, ⟨1, none⟩], [1], 1⟩ ∧
      acquisitions comings = 3 ∧ releases comings = 2 ∧
      IsGreatest {n | ∃ before, before <+: comings ∧ n = outstanding before} 2 := by
  have run : TableHistory comings ⟨[⟨1, some 9⟩, ⟨1, none⟩], [1], 1⟩ :=
    (((((TableHistory.new.call (.acquire 7)).call (.acquire 8)).call (.release ⟨0, 0⟩)).call
      (.release ⟨0, 0⟩)).call (.acquire 9)).call (.release ⟨1, 0⟩)
  obtain ⟨-, -, -, balance, -, peak, -⟩ := run.accounts_agree
  exact ⟨run, balance, rfl, peak⟩

end TableHistory

end ModuleLink
