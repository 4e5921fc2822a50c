import Mathlib.Tactic.Common
import ModuleLink.TextBytes

/-! # The characters of a text and their bytes

The bytes of a text are those of its characters, one after the other. A character takes one to four
bytes, and they are read as this character again. Nothing else is read as characters, so bytes are text
exactly if they are the bytes of a text. -/
namespace ModuleLink

private theorem toList_loop (bytes : ByteArray) (i : Nat) (read : Bytes) :
    ByteArray.toList.loop bytes i read = read.reverse ++ bytes.data.toList.drop i := by
  fun_induction ByteArray.toList.loop bytes i read with
  | case1 i read hi ih =>
    have here : i < bytes.data.toList.length := hi
    have first : bytes.get! i = bytes.data.toList[i] := getElem!_pos bytes.data i hi
    rw [ih, List.reverse_cons, List.append_assoc, List.drop_eq_getElem_cons here, first]
    rfl
  | case2 i read hi =>
    have past : bytes.data.toList.length ≤ i := Nat.not_lt.mp hi
    rw [List.drop_eq_nil_of_le past, List.append_nil]

theorem textBytes_eq (s : String) : textBytes s = s.toList.flatMap String.utf8EncodeChar := by
  rw [textBytes, String.toUTF8, ← String.utf8Encode_toList, List.utf8Encode, ByteArray.toList,
    toList_loop, List.data_toByteArray]
  rfl

section Characters

variable {read : List Char} {rest : Bytes} {a b c d : UInt8}

theorem charactersAfter_one (ha : a < 0x80) :
    charactersAfter read (a :: rest) = charactersAfter (Char.ofNat a.toNat :: read) rest := by
  rw [charactersAfter.eq_def]
  exact if_pos ha

theorem charactersAfter_two (lead : 0xc2 ≤ a) (below : a < 0xe0) (hb : isContinuation b) :
    charactersAfter read (a :: b :: rest) =
      charactersAfter (scalar (a.toNat - 0xc0) [b] :: read) rest := by
  have past : ¬ a < 0x80 := UInt8.not_lt.mpr (UInt8.le_trans (by decide) lead)
  rw [charactersAfter.eq_def]
  simp only [past, UInt8.not_lt.mpr lead, below, hb, if_true, if_false]

theorem charactersAfter_three (lead : 0xe0 ≤ a) (below : a < 0xf0) (hb : isContinuation b)
    (hc : isContinuation c) (short : a = 0xe0 → 0xa0 ≤ b) (surrogate : a = 0xed → b < 0xa0) :
    charactersAfter read (a :: b :: c :: rest) =
      charactersAfter (scalar (a.toNat - 0xe0) [b, c] :: read) rest := by
  have past : ∀ n : UInt8, n ≤ 0xe0 → ¬ a < n := fun n hn =>
    UInt8.not_lt.mpr (UInt8.le_trans hn lead)
  have admitted : (a != 0xe0 || 0xa0 ≤ b) ∧ (a != 0xed || b < 0xa0) := by
    simpa [← imp_iff_not_or] using And.intro short surrogate
  rw [charactersAfter.eq_def]
  simp only [past 0x80 (by decide), past 0xc2 (by decide), past 0xe0 (by decide), below, hb, hc,
    admitted.1, admitted.2, if_true, if_false, Bool.true_and]

theorem charactersAfter_four (lead : 0xf0 ≤ a) (below : a < 0xf5) (hb : isContinuation b)
    (hc : isContinuation c) (hd : isContinuation d) (short : a = 0xf0 → 0x90 ≤ b)
    (large : a = 0xf4 → b < 0x90) :
    charactersAfter read (a :: b :: c :: d :: rest) =
      charactersAfter (scalar (a.toNat - 0xf0) [b, c, d] :: read) rest := by
  have past : ∀ n : UInt8, n ≤ 0xf0 → ¬ a < n := fun n hn =>
    UInt8.not_lt.mpr (UInt8.le_trans hn lead)
  have admitted : (a != 0xf0 || 0x90 ≤ b) ∧ (a != 0xf4 || b < 0x90) := by
    simpa [← imp_iff_not_or] using And.intro short large
  rw [charactersAfter.eq_def]
  simp only [past 0x80 (by decide), past 0xc2 (by decide), past 0xe0 (by decide),
    past 0xf0 (by decide), below, hb, hc, hd, admitted.1, admitted.2, if_true, if_false,
    decide_true, Bool.true_and]

end Characters

theorem toNat_ofNat_byte {n : Nat} (h : n < 256) : (UInt8.ofNat n).toNat = n := by
  rw [UInt8.toNat_ofNat']
  exact Nat.mod_eq_of_lt h

theorem isContinuation_ofNat (n : Nat) : isContinuation (.ofNat (n % 64 + 128)) = true := by
  have byte := toNat_ofNat_byte (show n % 64 + 128 < 256 by omega)
  simp only [isContinuation, Bool.and_eq_true, decide_eq_true_eq, UInt8.le_iff_toNat_le, byte]
  exact ⟨Nat.le_add_left 128 _, show _ ≤ 191 by omega⟩

/-- A character is read back from its own bytes. -/
theorem charactersAfter_encode (read : List Char) (c : Char) (rest : Bytes) :
    charactersAfter read (String.utf8EncodeChar c ++ rest) = charactersAfter (c :: read) rest := by
  have valid : c.val.toNat < 0xd800 ∨ 0xdfff < c.val.toNat ∧ c.val.toNat < 0x110000 := c.valid
  have back : Char.ofNat c.val.toNat = c := Char.ofNat_toNat c
  unfold String.utf8EncodeChar
  generalize c.val.toNat = v at valid back
  have six : ∀ n, (UInt8.ofNat (n % 64 + 128)).toNat = n % 64 + 128 :=
    fun n => toNat_ofNat_byte (by omega)
  dsimp only
  split
  · have lead := toNat_ofNat_byte (show v < 256 by omega)
    rw [List.cons_append, List.nil_append, charactersAfter_one, lead, back]
    rw [UInt8.lt_iff_toNat_lt, lead]
    exact show v < 128 by omega
  · split
    · have lead := toNat_ofNat_byte (show v / 64 % 32 + 192 < 256 by omega)
      have spelled : (v / 64 % 32 + 192 - 192) * 64 + (v % 64 + 128) % 64 = v := by omega
      rw [List.cons_append, List.cons_append, List.nil_append,
        charactersAfter_two _ _ (isContinuation_ofNat v), lead, scalar, List.foldl_cons,
        List.foldl_nil, six, spelled, back]
      · rw [UInt8.le_iff_toNat_le, lead]
        exact show 194 ≤ _ by omega
      · rw [UInt8.lt_iff_toNat_lt, lead]
        exact show _ < 224 by omega
    · split
      · have lead := toNat_ofNat_byte (show v / 4096 % 16 + 224 < 256 by omega)
        have spelled : ((v / 4096 % 16 + 224 - 224) * 64 + (v / 64 % 64 + 128) % 64) * 64 +
            (v % 64 + 128) % 64 = v := by omega
        simp only [List.cons_append, List.nil_append]
        rw [charactersAfter_three _ _ (isContinuation_ofNat _) (isContinuation_ofNat v), lead,
          scalar, List.foldl_cons, List.foldl_cons, List.foldl_nil, six, six, spelled, back]
        · rw [← UInt8.toNat_inj, lead, UInt8.le_iff_toNat_le, six]
          exact show _ = 224 → 160 ≤ _ by omega
        · rw [← UInt8.toNat_inj, lead, UInt8.lt_iff_toNat_lt, six]
          exact show _ = 237 → _ < 160 by omega
        · rw [UInt8.le_iff_toNat_le, lead]
          exact show 224 ≤ _ by omega
        · rw [UInt8.lt_iff_toNat_lt, lead]
          exact show _ < 240 by omega
      · have lead := toNat_ofNat_byte (show v / 262144 % 8 + 240 < 256 by omega)
        have spelled : (((v / 262144 % 8 + 240 - 240) * 64 + (v / 4096 % 64 + 128) % 64) * 64 +
            (v / 64 % 64 + 128) % 64) * 64 + (v % 64 + 128) % 64 = v := by omega
        simp only [List.cons_append, List.nil_append]
        rw [charactersAfter_four _ _ (isContinuation_ofNat _) (isContinuation_ofNat _)
          (isContinuation_ofNat v), lead, scalar, List.foldl_cons, List.foldl_cons, List.foldl_cons,
          List.foldl_nil, six, six, six, spelled, back]
        · rw [← UInt8.toNat_inj, lead, UInt8.le_iff_toNat_le, six]
          exact show _ = 240 → 144 ≤ _ by omega
        · rw [← UInt8.toNat_inj, lead, UInt8.lt_iff_toNat_lt, six]
          exact show _ = 244 → _ < 144 by omega
        · rw [UInt8.le_iff_toNat_le, lead]
          exact show 240 ≤ _ by omega
        · rw [UInt8.lt_iff_toNat_lt, lead]
          exact show _ < 245 by omega

theorem charactersAfter_flatMap (read cs : List Char) :
    charactersAfter read (cs.flatMap String.utf8EncodeChar) = some (read.reverse ++ cs) := by
  induction cs generalizing read with
  | nil => rw [List.flatMap_nil, charactersAfter.eq_def, List.append_nil]
  | cons c cs ih => simp [charactersAfter_encode, ih]

theorem toNat_ofNat_character {n : Nat} (valid : n.isValidChar) : (Char.ofNat n).val.toNat = n := by
  rw [Char.ofNat, dif_pos valid]
  rfl

theorem ofNat_eq_byte {n : Nat} {b : UInt8} (h : n = b.toNat) : UInt8.ofNat n = b := by
  rw [h, UInt8.ofNat_toNat]

theorem isContinuation_iff (b : UInt8) : isContinuation b ↔ 128 ≤ b.toNat ∧ b.toNat < 192 := by
  simp only [isContinuation, Bool.and_eq_true, decide_eq_true_eq, UInt8.le_iff_toNat_le]
  exact and_congr_right fun _ => Nat.lt_succ_iff.symm

section Encoded
variable {a b c d : UInt8}

theorem encode_one (ha : a < 0x80) : String.utf8EncodeChar (Char.ofNat a.toNat) = [a] := by
  have small : a.toNat < 128 := UInt8.lt_iff_toNat_lt.mp ha
  have valid : a.toNat.isValidChar := .inl (by omega)
  simp only [String.utf8EncodeChar, toNat_ofNat_character valid]
  rw [if_pos (by omega), UInt8.ofNat_toNat]

theorem encode_two (lead : 0xc2 ≤ a) (below : a < 0xe0) (hb : isContinuation b) :
    String.utf8EncodeChar (scalar (a.toNat - 0xc0) [b]) = [a, b] := by
  have lead : 194 ≤ a.toNat := UInt8.le_iff_toNat_le.mp lead
  have below : a.toNat < 224 := UInt8.lt_iff_toNat_lt.mp below
  have hb := (isContinuation_iff b).mp hb
  have valid : ((a.toNat - 192) * 64 + b.toNat % 64).isValidChar := .inl (by omega)
  simp only [scalar, List.foldl_cons, List.foldl_nil, String.utf8EncodeChar,
    toNat_ofNat_character valid]
  rw [if_neg (by omega), if_pos (by omega)]
  simp only [List.cons.injEq, and_true]
  exact ⟨ofNat_eq_byte (by omega), ofNat_eq_byte (by omega)⟩

theorem encode_three (lead : 0xe0 ≤ a) (below : a < 0xf0) (hb : isContinuation b)
    (hc : isContinuation c) (short : a = 0xe0 → 0xa0 ≤ b) (surrogate : a = 0xed → b < 0xa0) :
    String.utf8EncodeChar (scalar (a.toNat - 0xe0) [b, c]) = [a, b, c] := by
  have lead : 224 ≤ a.toNat := UInt8.le_iff_toNat_le.mp lead
  have below : a.toNat < 240 := UInt8.lt_iff_toNat_lt.mp below
  have hb := (isContinuation_iff b).mp hb
  have hc := (isContinuation_iff c).mp hc
  have short : a.toNat = 224 → 160 ≤ b.toNat := fun h =>
    UInt8.le_iff_toNat_le.mp (short (UInt8.toNat_inj.mp h))
  have surrogate : a.toNat = 237 → b.toNat < 160 := fun h =>
    UInt8.lt_iff_toNat_lt.mp (surrogate (UInt8.toNat_inj.mp h))
  have valid : (((a.toNat - 224) * 64 + b.toNat % 64) * 64 + c.toNat % 64).isValidChar := by
    by_cases h : a.toNat ≤ 237
    · exact .inl (by omega)
    · exact .inr (by omega)
  simp only [scalar, List.foldl_cons, List.foldl_nil, String.utf8EncodeChar,
    toNat_ofNat_character valid]
  rw [if_neg (by omega), if_neg (by omega), if_pos (by omega)]
  simp only [List.cons.injEq, and_true]
  exact ⟨ofNat_eq_byte (by omega), ofNat_eq_byte (by omega), ofNat_eq_byte (by omega)⟩

theorem encode_four (lead : 0xf0 ≤ a) (below : a < 0xf5) (hb : isContinuation b)
    (hc : isContinuation c) (hd : isContinuation d) (short : a = 0xf0 → 0x90 ≤ b)
    (large : a = 0xf4 → b < 0x90) :
    String.utf8EncodeChar (scalar (a.toNat - 0xf0) [b, c, d]) = [a, b, c, d] := by
  have lead : 240 ≤ a.toNat := UInt8.le_iff_toNat_le.mp lead
  have below : a.toNat < 245 := UInt8.lt_iff_toNat_lt.mp below
  have hb := (isContinuation_iff b).mp hb
  have hc := (isContinuation_iff c).mp hc
  have hd := (isContinuation_iff d).mp hd
  have short : a.toNat = 240 → 144 ≤ b.toNat := fun h =>
    UInt8.le_iff_toNat_le.mp (short (UInt8.toNat_inj.mp h))
  have large : a.toNat = 244 → b.toNat < 144 := fun h =>
    UInt8.lt_iff_toNat_lt.mp (large (UInt8.toNat_inj.mp h))
  have valid : ((((a.toNat - 240) * 64 + b.toNat % 64) * 64 + c.toNat % 64) * 64 +
      d.toNat % 64).isValidChar := .inr (by omega)
  simp only [scalar, List.foldl_cons, List.foldl_nil, String.utf8EncodeChar,
    toNat_ofNat_character valid]
  rw [if_neg (by omega), if_neg (by omega), if_neg (by omega)]
  simp only [List.cons.injEq, and_true]
  exact ⟨ofNat_eq_byte (by omega), ofNat_eq_byte (by omega), ofNat_eq_byte (by omega),
    ofNat_eq_byte (by omega)⟩

end Encoded

private theorem spells_cons {read cs : List Char} {c : Char} {first rest : Bytes}
    (spelled : ∃ tail, cs = (c :: read).reverse ++ tail ∧ rest = tail.flatMap String.utf8EncodeChar)
    (encoded : String.utf8EncodeChar c = first) :
    ∃ tail, cs = read.reverse ++ tail ∧ first ++ rest = tail.flatMap String.utf8EncodeChar := by
  obtain ⟨tail, rfl, rfl⟩ := spelled
  refine ⟨c :: tail, ?_, ?_⟩
  · rw [List.reverse_cons, List.append_assoc]
    rfl
  · rw [List.flatMap_cons, encoded]

/-- Bytes that are read as characters are theirs. -/
theorem spells_of_charactersAfter {read cs : List Char} {bytes : Bytes}
    (h : charactersAfter read bytes = some cs) :
    ∃ tail, cs = read.reverse ++ tail ∧ bytes = tail.flatMap String.utf8EncodeChar := by
  fun_induction charactersAfter read bytes with
  | case1 read => exact ⟨[], by rw [List.append_nil, Option.some.inj h], rfl⟩
  | case2 read a rest one ih => exact spells_cons (ih h) (encode_one one)
  | case5 read a past lead b rest two hb ih =>
    exact spells_cons (ih h) (encode_two (UInt8.not_lt.mp lead) two hb)
  | case8 read a past lead b long c rest three all ih =>
    simp only [Bool.and_eq_true, Bool.or_eq_true, bne_iff_ne, decide_eq_true_eq,
      ← imp_iff_not_or] at all
    obtain ⟨⟨⟨hb, hc⟩, short⟩, surrogate⟩ := all
    exact spells_cons (ih h) (encode_three (UInt8.not_lt.mp long) three hb hc short surrogate)
  | case11 read a past lead b long c longer d rest all ih =>
    simp only [Bool.and_eq_true, Bool.or_eq_true, bne_iff_ne, decide_eq_true_eq,
      ← imp_iff_not_or] at all
    obtain ⟨⟨⟨⟨⟨four, hb⟩, hc⟩, hd⟩, short⟩, large⟩ := all
    exact spells_cons (ih h) (encode_four (UInt8.not_lt.mp longer) four hb hc hd short large)
  | case3 | case4 | case6 | case7 | case9 | case10 | case12 => cases h

theorem characters?_eq_some_iff {bytes : Bytes} {cs : List Char} :
    characters? bytes = some cs ↔ bytes = cs.flatMap String.utf8EncodeChar := by
  constructor
  · intro h
    obtain ⟨tail, rfl, spelled⟩ := spells_of_charactersAfter h
    exact spelled
  · rintro rfl
    exact charactersAfter_flatMap [] cs

/-- Bytes are text exactly if they are the bytes of a text. -/
theorem isText_iff {bytes : Bytes} : isText bytes ↔ ∃ s, textBytes s = bytes := by
  rw [isText, Option.isSome_iff_exists]
  constructor
  · rintro ⟨cs, h⟩
    refine ⟨String.ofList cs, ?_⟩
    rw [textBytes_eq, String.toList_ofList, characters?_eq_some_iff.mp h]
  · rintro ⟨s, rfl⟩
    exact ⟨s.toList, characters?_eq_some_iff.mpr (textBytes_eq s)⟩

theorem isText_textBytes (s : String) : isText (textBytes s) = true := isText_iff.mpr ⟨s, rfl⟩

end ModuleLink
