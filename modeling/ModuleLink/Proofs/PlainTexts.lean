import Mathlib.Data.List.TakeWhile
import ModuleLink.DecimalNumbers
import ModuleLink.WhiteSpace

/-! # Texts without white space around them, and numbers in text

Trimming takes off all the white space at both ends of a text and nothing else. A number is read from
its digits, also behind a plus sign and behind zeros, and it is written with digits alone. -/
namespace ModuleLink

/-- A text stands in another one with nothing but white space around it, and has none at either of
its ends. -/
structure StandsIn (inner text : List Char) : Prop where
  around : ∃ before after, text = before ++ inner ++ after ∧
    (∀ c ∈ before, isBlank c) ∧ ∀ c ∈ after, isBlank c
  first : ∀ c, inner.head? = some c → isBlank c = false
  last : ∀ c, inner.getLast? = some c → isBlank c = false

theorem StandsIn.refl {text : List Char} (first : ∀ c, text.head? = some c → isBlank c = false)
    (last : ∀ c, text.getLast? = some c → isBlank c = false) : StandsIn text text :=
  ⟨⟨[], [], by simp, nofun, nofun⟩, first, last⟩

theorem dropWhile_of_first {cs : List Char} (first : ∀ c, cs.head? = some c → isBlank c = false) :
    cs.dropWhile isBlank = cs := by
  cases cs with
  | nil => rfl
  | cons c cs => rw [List.dropWhile_cons_of_neg (by simp [first c rfl])]

theorem first_dropWhile (cs : List Char) :
    ∀ c, (cs.dropWhile isBlank).head? = some c → isBlank c = false := by
  intro c hc
  have := List.head?_dropWhile_not isBlank cs
  rwa [hc] at this

theorem trimEnd_append {inner after : List Char} (blank : ∀ c ∈ after, isBlank c)
    (last : ∀ c, inner.getLast? = some c → isBlank c = false) : trimEnd (inner ++ after) = inner := by
  have blank' : ∀ c ∈ after.reverse, isBlank c := fun c hc => blank c (List.mem_reverse.mp hc)
  have first : ∀ c, inner.reverse.head? = some c → isBlank c = false := fun c hc =>
    last c (List.head?_reverse.symm.trans hc)
  rw [trimEnd, List.reverse_append, List.dropWhile_append_of_pos blank', dropWhile_of_first first,
    List.reverse_reverse]

theorem trim_of_standsIn {inner text : List Char} (h : StandsIn inner text) : trim text = inner := by
  obtain ⟨before, after, rfl, ahead, behind⟩ := h.around
  rw [trim, List.append_assoc, List.dropWhile_append_of_pos ahead]
  cases inner with
  | nil =>
    rw [List.nil_append, List.dropWhile_eq_nil_iff.mpr behind]
    rfl
  | cons c inner =>
    rw [List.cons_append, List.dropWhile_cons_of_neg (by simp [h.first c rfl])]
    exact trimEnd_append behind h.last

theorem trim_standsIn (text : List Char) : StandsIn (trim text) text := by
  generalize hr : text.dropWhile isBlank = rest
  have trimmed : trim text = (rest.reverse.dropWhile isBlank).reverse := by rw [trim, hr, trimEnd]
  have cut : text = text.takeWhile isBlank ++ rest := by rw [← hr, List.takeWhile_append_dropWhile]
  have cut' : rest = trim text ++ (rest.reverse.takeWhile isBlank).reverse := by
    rw [trimmed, ← List.reverse_append, List.takeWhile_append_dropWhile, List.reverse_reverse]
  refine ⟨⟨text.takeWhile isBlank, (rest.reverse.takeWhile isBlank).reverse, ?_,
    fun c hc => List.mem_takeWhile_imp hc, fun c hc => ?_⟩, fun c hc => ?_, fun c hc => ?_⟩
  · rw [List.append_assoc, ← cut', ← cut]
  · exact List.mem_takeWhile_imp (List.mem_reverse.mp hc)
  · refine first_dropWhile text c ?_
    rw [hr, cut', List.head?_append, hc]
    rfl
  · rw [trimmed, List.getLast?_reverse] at hc
    exact first_dropWhile rest.reverse c hc

/-- A number in decimal digits, which may carry a plus sign. -/
def SpellsNatural (cs : List Char) (n : Nat) : Prop :=
  ∃ digits, (cs = digits ∨ cs = '+' :: digits) ∧ digits ≠ [] ∧ (∀ c ∈ digits, c.isDigit) ∧
    Nat.ofDigitChars 10 digits 0 = n

theorem foldlM_digit?_eq_some_iff {cs : List Char} {start n : Nat} :
    cs.foldlM (fun n c => (digit? c).map (n * 10 + ·)) start = some n ↔
      (∀ c ∈ cs, c.isDigit) ∧ Nat.ofDigitChars 10 cs start = n := by
  induction cs generalizing start with
  | nil => simp
  | cons c cs ih =>
    rw [List.foldlM_cons, List.forall_mem_cons, Nat.ofDigitChars_cons, Nat.mul_comm 10 start]
    by_cases digit : c.isDigit
    · rw [digit?, if_pos digit]
      exact ih.trans (by simp [digit])
    · simp [digit?, digit]

theorem digits?_eq_some_iff {cs : List Char} {n : Nat} :
    digits? cs = some n ↔
      cs ≠ [] ∧ (∀ c ∈ cs, c.isDigit) ∧ Nat.ofDigitChars 10 cs 0 = n := by
  unfold digits?
  split
  case isTrue none => simp [none]
  case isFalse some => rw [foldlM_digit?_eq_some_iff, and_iff_right some]

theorem natural?_eq_some_iff {limit n : Nat} {cs : List Char} :
    natural? limit cs = some n ↔ SpellsNatural cs n ∧ n ≤ limit := by
  rw [natural?, Option.filter_eq_some_iff, decide_eq_true_eq, digits?_eq_some_iff]
  refine and_congr_left fun _ => ?_
  split
  case isTrue signed =>
    obtain ⟨rest, rfl⟩ : ∃ rest, cs = '+' :: rest := List.head?_eq_some_iff.mp signed
    refine ⟨fun digits => ⟨rest, .inr rfl, digits⟩, ?_⟩
    rintro ⟨digits, rfl | same, some, all, value⟩
    · exact absurd (all '+' List.mem_cons_self) (by decide)
    · obtain rfl := (List.cons.inj same).2
      exact ⟨some, all, value⟩
  case isFalse unsigned =>
    refine ⟨fun digits => ⟨cs, .inl rfl, digits⟩, ?_⟩
    rintro ⟨digits, rfl | rfl, spelled⟩
    · exact spelled
    · exact absurd rfl unsigned

theorem toNat_of_isDigit {c : Char} (h : c.isDigit) : 48 ≤ c.toNat ∧ c.toNat ≤ 57 := by
  simp only [Char.isDigit, Bool.and_eq_true, decide_eq_true_eq, UInt32.le_iff_toNat_le] at h
  exact h

theorem isBlank_of_isDigit {c : Char} (h : c.isDigit) : isBlank c = false := by
  have := toNat_of_isDigit h
  simp only [isBlank, Bool.or_eq_false_iff, Bool.and_eq_false_iff, decide_eq_false_iff_not]
  omega

theorem SpellsNatural.notMem_colon {cs : List Char} {n : Nat} (h : SpellsNatural cs n) :
    ':' ∉ cs := by
  obtain ⟨digits, rfl | rfl, -, all, -⟩ := h
  · exact fun colon => absurd (all ':' colon) (by decide)
  · exact List.not_mem_cons_of_ne_of_not_mem (by decide)
      fun colon => absurd (all ':' colon) (by decide)

theorem isDigit_of_mem_toDigits {n : Nat} {c : Char} (h : c ∈ Nat.toDigits 10 n) : c.isDigit :=
  Nat.isDigit_of_mem_toDigits (by decide) (by decide) h

theorem spellsNatural_toDigits (n : Nat) : SpellsNatural (Nat.toDigits 10 n) n :=
  ⟨_, .inl rfl, Nat.toDigits_ne_nil, fun _ => isDigit_of_mem_toDigits,
    Nat.ofDigitChars_toDigits (by decide) (by decide)⟩

theorem toList_toString_nat (n : Nat) : (toString n).toList = Nat.toDigits 10 n := by
  rw [Nat.toString_eq_ofList_toDigits, String.toList_ofList]

theorem toList_toString_port (port : UInt16) :
    (toString port).toList = Nat.toDigits 10 port.toNat :=
  toList_toString_nat port.toNat

end ModuleLink
