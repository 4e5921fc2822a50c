import Mathlib.Data.List.Basic
import ModuleLink.Targets
import ModuleLink.Proofs.PlainTexts

/-! # Targets and their texts

A text names a target if what stands in it is a host, or a host and a port behind the last colon; of
what names none the error shows the text without the white space around it. Every target that was read
is read again from the text that shows it. -/
namespace ModuleLink.Target

variable {cs before after : List Char} {c : Char}

theorem splitAtLast_eq_none_iff : splitAtLast c cs = none ↔ c ∉ cs := by simp [splitAtLast]

theorem splitAtLast_append (before : List Char) (clean : c ∉ after) :
    splitAtLast c (before ++ c :: after) = some (before, after) := by
  have goesOn : ∀ d ∈ after.reverse, decide (d ≠ c) = true := fun d hd =>
    decide_eq_true fun same => clean (same ▸ List.mem_reverse.mp hd)
  have turned : (before ++ c :: after).reverse = after.reverse ++ c :: before.reverse := by simp
  have last : (after.reverse ++ c :: before.reverse).takeWhile (· ≠ c) = after.reverse := by
    rw [List.takeWhile_append_of_pos goesOn, List.takeWhile_cons_of_neg (by simp), List.append_nil]
  have dropped : (after.reverse ++ c :: before.reverse).drop (after.reverse.length + 1) =
      before.reverse := by
    rw [← List.drop_drop, List.drop_left, List.drop_one, List.tail_cons]
  rw [splitAtLast, if_pos (List.mem_append_right _ List.mem_cons_self), turned]
  dsimp only
  rw [last, dropped, List.reverse_reverse, List.reverse_reverse]

theorem splitAtLast_eq_some_iff :
    splitAtLast c cs = some (before, after) ↔ cs = before ++ c :: after ∧ c ∉ after := by
  constructor
  · intro h
    have there : c ∈ cs := by
      refine Classical.not_not.mp fun clean => ?_
      rw [splitAtLast_eq_none_iff.mpr clean] at h
      cases h
    obtain ⟨back, front, turned, clean⟩ := List.eq_append_cons_of_mem (List.mem_reverse.mpr there)
    have spelled : cs = front.reverse ++ c :: back.reverse := by
      rw [← List.reverse_reverse cs, turned]
      simp
    rw [← List.mem_reverse] at clean
    rw [spelled, splitAtLast_append _ clean] at h
    obtain ⟨rfl, rfl⟩ := Prod.mk.inj (Option.some.inj h)
    exact ⟨spelled, clean⟩
  · rintro ⟨rfl, clean⟩
    exact splitAtLast_append _ clean

inductive Names : List Char → Target → Prop
  | host {host : List Char} (some : host ≠ []) (whole : ':' ∉ host) :
      Names host ⟨String.ofList host, defaultPort⟩
  | hostAndPort {host port : List Char} {n : Nat} (some : host ≠ [])
      (number : SpellsNatural port n) (fits : n ≤ largestPort) :
      Names (host ++ ':' :: port) ⟨String.ofList host, .ofNat n⟩

variable {t : Target}

theorem port?_eq_some_iff {port : UInt16} :
    port? cs = some port ↔ ∃ n, SpellsNatural cs n ∧ n ≤ largestPort ∧ port = .ofNat n := by
  simp only [port?, Option.map_eq_some_iff, natural?_eq_some_iff, and_assoc, eq_comm]

theorem names_of_whole (whole : ':' ∉ cs) :
    Names cs t ↔ cs ≠ [] ∧ t = ⟨String.ofList cs, defaultPort⟩ := by
  constructor
  · rintro (⟨some, -⟩ | ⟨-, -, -⟩)
    · exact ⟨some, rfl⟩
    · exact absurd (List.mem_append_right _ List.mem_cons_self) whole
  · rintro ⟨some, rfl⟩
    exact .host some whole

theorem names_of_cut {host port : List Char} (clean : ':' ∉ port) :
    Names (host ++ ':' :: port) t ↔
      host ≠ [] ∧ ∃ p, port? port = some p ∧ t = ⟨String.ofList host, p⟩ := by
  constructor
  · intro names
    generalize spelled : host ++ ':' :: port = text at names
    cases names with
    | host _ whole => exact absurd (spelled ▸ List.mem_append_right _ List.mem_cons_self) whole
    | hostAndPort some number fits =>
      have same := splitAtLast_append host clean
      rw [spelled, splitAtLast_append _ number.notMem_colon] at same
      obtain ⟨rfl, rfl⟩ := Prod.mk.inj (Option.some.inj same)
      exact ⟨some, _, port?_eq_some_iff.mpr ⟨_, number, fits, rfl⟩, rfl⟩
  · rintro ⟨some, p, read, rfl⟩
    obtain ⟨n, number, fits, rfl⟩ := port?_eq_some_iff.mp read
    exact .hostAndPort some number fits

theorem parse_trimmed {s : String} (h : StandsIn cs s.toList) :
    (∀ t, parse s = .ok t ↔ Names cs t) ∧
      ∀ e, parse s = .error e → e = .invalidTarget (String.ofList cs) := by
  simp only [parse, trim_of_standsIn h]
  cases cut : splitAtLast ':' cs with
  | none =>
    have whole := splitAtLast_eq_none_iff.mp cut
    simp only [names_of_whole whole]
    by_cases none : cs = []
    · simp [none]
    · simp [none, eq_comm]
  | some parts =>
    obtain ⟨host, port⟩ := parts
    obtain ⟨rfl, clean⟩ := splitAtLast_eq_some_iff.mp cut
    simp only [names_of_cut clean]
    cases port? port with
    | none => simp
    | some p =>
      by_cases none : host = []
      · simp [none]
      · simp [none, eq_comm]

theorem toList_display (t : Target) :
    t.display.toList = t.host.toList ++ ':' :: Nat.toDigits 10 t.port.toNat := by
  simp [display, toList_toString_port]

/-- The host of a target that a text names starts as the text does. -/
theorem Names.first (names : Names cs t) : t.host ≠ "" ∧ t.host.toList.head? = cs.head? := by
  cases names with
  | host some _ => exact ⟨fun empty => some (String.ofList_eq_empty_iff.mp empty), by simp⟩
  | hostAndPort some =>
    refine ⟨fun empty => some (String.ofList_eq_empty_iff.mp empty), ?_⟩
    rw [String.toList_ofList, List.head?_append_of_ne_nil _ some]

theorem names_display (some : t.host ≠ "") : Names t.display.toList t := by
  have host : t.host.toList ≠ [] := fun empty => some (String.toList_eq_nil_iff.mp empty)
  have names := Names.hostAndPort host (spellsNatural_toDigits t.port.toNat)
    (Nat.le_of_lt_succ t.port.toNat_lt)
  rwa [String.ofList_toList, UInt16.ofNat_toNat, ← toList_display] at names

/-- What shows a target has no white space around it unless its host starts with some. -/
theorem display_trimmed (first : ∀ c, t.host.toList.head? = some c → isBlank c = false)
    (some : t.host ≠ "") : StandsIn t.display.toList t.display.toList := by
  have host : t.host.toList ≠ [] := fun empty => some (String.toList_eq_nil_iff.mp empty)
  rw [toList_display]
  refine .refl (fun c hc => ?_) fun c hc => ?_
  · rw [List.head?_append_of_ne_nil _ host] at hc
    exact first c hc
  · rw [List.getLast?_append_cons] at hc
    rcases List.mem_cons.mp (List.mem_of_getLast? hc) with rfl | digit
    · decide
    · exact isBlank_of_isDigit (isDigit_of_mem_toDigits digit)

/-- A text is read as a target exactly if it names one, and is refused under its trimmed form
otherwise. What was read is shown by a text that is read as the same target. -/
theorem parse_exact (s : String) :
    (∀ t, parse s = .ok t ↔ ∃ cs, StandsIn cs s.toList ∧ Names cs t) ∧
    (∀ e, parse s = .error e → ∃ cs, StandsIn cs s.toList ∧ e = .invalidTarget (String.ofList cs)) ∧
    ∀ t, parse s = .ok t → parse t.display = .ok t := by
  have trimmed := trim_standsIn s.toList
  obtain ⟨read, refused⟩ := parse_trimmed trimmed
  refine ⟨fun t => ⟨fun h => ⟨_, trimmed, (read t).mp h⟩, ?_⟩, fun e h => ⟨_, trimmed, refused e h⟩,
    fun t h => ?_⟩
  · rintro ⟨cs, standsIn, names⟩
    exact ((parse_trimmed standsIn).1 t).mpr names
  · have names := (read t).mp h
    obtain ⟨some, first⟩ := names.first
    have whole : StandsIn t.display.toList t.display.toList :=
      display_trimmed (fun c hc => trimmed.first c (first ▸ hc)) some
    exact ((parse_trimmed whole).1 t).mpr (names_display some)

/-- A host with colons and a space in it, and a port with a sign and a zero too many. -/
theorem parse_exact_bracketed :
    parse "\t [::1] x:+080\n" = .ok ⟨"[::1] x", 80⟩ ∧ parse "[::1] x:80" = .ok ⟨"[::1] x", 80⟩ := by
  have read : parse "\t [::1] x:+080\n" = .ok ⟨"[::1] x", 80⟩ := by decide +kernel
  exact ⟨read, (parse_exact _).2.2 _ read⟩

end ModuleLink.Target
