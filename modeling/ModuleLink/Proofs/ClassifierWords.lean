import ModuleLink.Proofs.ClassifierFields

/-! # Which words and classifiers stand for each other

A word that is unpacked and packed again comes back as it was, but for orders that nobody knows. A
classifier that is packed and unpacked again comes back as it was, but for an alignment that carries
the code of a named one without its name. -/
namespace ModuleLink

/-- A code beyond those of the orders stands for the order that nobody knows. -/
theorem ByteOrder.code_ofCode (code : UInt32) :
    (ofCode code).code = if code ≤ 3 then code else 0 := by
  by_cases known : code ≤ 3
  · rw [if_pos known]
    have value : code.toNat ≤ 3 := UInt32.le_iff_toNat_le.mp known
    obtain rfl | rfl | rfl | rfl : code = 0 ∨ code = 1 ∨ code = 2 ∨ code = 3 := by
      simp only [← UInt32.toNat_inj, UInt32.reduceToNat]
      omega
    all_goals rfl
  · rw [if_neg known]
    unfold ofCode
    rw [if_neg, if_neg, if_neg]
    · rfl
    all_goals
      rintro rfl
      exact known (by decide)

namespace Alignment

/-- Some alignment goes by a name that stands for this code. -/
def HasName (code : UInt8) : Prop := ∃ a : Alignment, (∀ n, a ≠ other n) ∧ a.code = code

def Canonical (a : Alignment) : Prop := ¬ ∃ code, a = other code ∧ HasName code

theorem ofCode_code_of_named {a : Alignment} (named : ∀ n, a ≠ other n) : ofCode a.code = a := by
  cases a with
  | other n => exact absurd rfl (named n)
  | _ => rfl

/-- The code of an alignment tells which one it is exactly if it goes by its name. -/
theorem ofCode_code_iff (a : Alignment) : ofCode a.code = a ↔ a.Canonical := by
  constructor
  · rintro back ⟨code, rfl, b, named, rfl⟩
    rw [code, ofCode_code_of_named named] at back
    exact named _ back
  · intro canonical
    cases a with
    | other code =>
      refine Decidable.byContradiction fun differs =>
        canonical ⟨code, rfl, ofCode code, fun n told => differs ?_, code_ofCode code⟩
      have same := code_ofCode code
      rw [told] at same
      rw [Alignment.code, told]
      exact congrArg other same
    | _ => rfl

instance (a : Alignment) : Decidable a.Canonical := decidable_of_iff _ (ofCode_code_iff a)

end Alignment

namespace Classifier

def dataNibble (w : UInt32) : UInt32 := w >>> 24 &&& 0xf

def classNibble (w : UInt32) : UInt32 := w >>> 28

/-- An order nibble, or 0 if there is no such order. -/
def knownNibble (nibble : UInt32) : UInt32 := if nibble ≤ 3 then nibble else 0

def withKnownOrders (w : UInt32) : UInt32 :=
  w &&& (0xffffff : UInt32) ||| knownNibble (dataNibble w) <<< 24 |||
    knownNibble (classNibble w) <<< 28

theorem toNat_dataNibble (w : UInt32) : (dataNibble w).toNat = w.toNat / 16777216 % 16 := by
  simp [dataNibble, Nat.shiftRight_eq_div_pow, Nat.and_two_pow_sub_one_eq_mod _ 4]

theorem toNat_classNibble (w : UInt32) : (classNibble w).toNat = w.toNat / 268435456 := by
  simp [classNibble, Nat.shiftRight_eq_div_pow]

theorem knownNibble_le (nibble : UInt32) : (knownNibble nibble).toNat ≤ 3 := by
  unfold knownNibble
  split
  · rename_i known
    exact UInt32.le_iff_toNat_le.mp known
  · decide

theorem knownNibble_eq_iff (nibble : UInt32) : knownNibble nibble = nibble ↔ nibble ≤ 3 := by
  constructor
  · intro same
    exact UInt32.le_iff_toNat_le.mpr (same ▸ knownNibble_le nibble)
  · exact fun known => if_pos known

theorem toNat_withKnownOrders (w : UInt32) :
    (withKnownOrders w).toNat = w.toNat % 16777216 + (knownNibble (dataNibble w)).toNat * 16777216 +
      (knownNibble (classNibble w)).toNat * 268435456 := by
  have hd := knownNibble_le (dataNibble w)
  have hc := knownNibble_le (classNibble w)
  have low : (w &&& (0xffffff : UInt32)).toNat = w.toNat % 16777216 := by
    simp [Nat.and_two_pow_sub_one_eq_mod _ 24]
  have middle : (w &&& (0xffffff : UInt32) ||| knownNibble (dataNibble w) <<< 24).toNat =
      w.toNat % 16777216 + (knownNibble (dataNibble w)).toNat * 16777216 := by
    rw [← low]
    refine toNat_or_shiftLeft (by decide) rfl ?_ ?_ <;> omega
  rw [← middle]
  refine toNat_or_shiftLeft (by decide) rfl ?_ ?_ <;> omega

/-- Packing again keeps every bit but those of orders that do not exist. -/
theorem pack_unpack (w : UInt32) : (unpack w).pack = withKnownOrders w := by
  have dataOrder : (unpack w).dataOrder.code = knownNibble (dataNibble w) :=
    ByteOrder.code_ofCode _
  have classOrder : (unpack w).classOrder.code = knownNibble (classNibble w) :=
    ByteOrder.code_ofCode _
  have alignment : (unpack w).alignment.code.toNat = w.toNat / 65536 % 256 := by
    simp [unpack, Alignment.code_ofCode, Nat.shiftRight_eq_div_pow]
  have classId : (unpack w).classId.toNat = w.toNat % 65536 := by simp [unpack]
  apply UInt32.toNat_inj.mp
  rw [toNat_pack, toNat_withKnownOrders, dataOrder, classOrder, alignment, classId]
  omega

theorem unpack_pack_unpack (w : UInt32) : unpack (unpack w).pack = unpack w :=
  unpack_pack (congrArg Alignment.ofCode (Alignment.code_ofCode _))

theorem withKnownOrders_eq_iff (w : UInt32) :
    withKnownOrders w = w ↔ dataNibble w ≤ 3 ∧ classNibble w ≤ 3 := by
  have hw := w.toNat_lt
  have hd := toNat_dataNibble w
  have hc := toNat_classNibble w
  have hd' := knownNibble_le (dataNibble w)
  have hc' := knownNibble_le (classNibble w)
  rw [← knownNibble_eq_iff, ← knownNibble_eq_iff, ← UInt32.toNat_inj, ← UInt32.toNat_inj,
    ← UInt32.toNat_inj, toNat_withKnownOrders]
  omega

/-- A classifier comes back exactly if its alignment goes by its name. -/
theorem unpack_pack_eq_iff (c : Classifier) : unpack c.pack = c ↔ c.alignment.Canonical := by
  rw [← Alignment.ofCode_code_iff]
  constructor
  · intro back
    rw [← alignment_unpack_pack, back]
  · exact unpack_pack

/-- Two classifiers are packed into one word exactly if they agree in every field, in alignments by
their codes. -/
theorem pack_eq_iff (c d : Classifier) :
    c.pack = d.pack ↔ c.classId = d.classId ∧ c.dataOrder = d.dataOrder ∧
      c.classOrder = d.classOrder ∧ c.alignment.code = d.alignment.code := by
  constructor
  · intro same
    refine ⟨?_, ?_, ?_, ?_⟩
    · rw [← classId_unpack_pack c, same, classId_unpack_pack]
    · rw [← dataOrder_unpack_pack c, same, dataOrder_unpack_pack]
    · rw [← classOrder_unpack_pack c, same, classOrder_unpack_pack]
    · rw [← Alignment.code_ofCode c.alignment.code, ← alignment_unpack_pack c, same,
        alignment_unpack_pack, Alignment.code_ofCode]
  · rintro ⟨classId, dataOrder, classOrder, alignment⟩
    rw [pack, classId, dataOrder, classOrder, alignment, pack]

theorem pack_injective {c d : Classifier} (hc : c.alignment.Canonical) (hd : d.alignment.Canonical)
    (same : c.pack = d.pack) : c = d := by
  rw [← (unpack_pack_eq_iff c).mpr hc, same, (unpack_pack_eq_iff d).mpr hd]

/-- Packing what was unpacked from a word changes nothing but orders that do not exist, and that once.
Unpacking what a classifier was packed into keeps its class id and its orders, and its alignment
exactly if that goes by its name; so classifiers whose alignments do are told apart by their words,
and any others by their fields and the codes of their alignments. -/
theorem packing_exact :
    (∀ w, (unpack w).pack = withKnownOrders w ∧ unpack (unpack w).pack = unpack w ∧
      ((unpack w).pack = w ↔ dataNibble w ≤ 3 ∧ classNibble w ≤ 3)) ∧
    (∀ c : Classifier, (unpack c.pack).classId = c.classId ∧
      (unpack c.pack).dataOrder = c.dataOrder ∧ (unpack c.pack).classOrder = c.classOrder ∧
      (unpack c.pack = c ↔ c.alignment.Canonical)) ∧
    (∀ c d : Classifier, c.alignment.Canonical → d.alignment.Canonical → c.pack = d.pack → c = d) ∧
    ∀ c d : Classifier, c.pack = d.pack ↔ c.classId = d.classId ∧ c.dataOrder = d.dataOrder ∧
      c.classOrder = d.classOrder ∧ c.alignment.code = d.alignment.code := by
  refine ⟨fun w => ⟨pack_unpack w, unpack_pack_unpack w, ?_⟩, fun c => ?_,
    fun c d hc hd same => pack_injective hc hd same, pack_eq_iff⟩
  · rw [pack_unpack]
    exact withKnownOrders_eq_iff w
  · exact ⟨classId_unpack_pack c, dataOrder_unpack_pack c, classOrder_unpack_pack c,
      unpack_pack_eq_iff c⟩

/-- Both orders of the first word do not exist, those of the second one do. An alignment may carry a
code without a name, but the one of a named alignment comes back under its name. -/
theorem packing_exact_unknownCodes :
    (unpack 0xf9770001).pack = 0x00770001 ∧ (unpack 0x32770001).pack = 0x32770001 ∧
      unpack (pack ⟨1, .little, .pdp, .other 0x77⟩) = ⟨1, .little, .pdp, .other 0x77⟩ ∧
      unpack (pack ⟨1, .little, .pdp, .other 0x20⟩) ≠ ⟨1, .little, .pdp, .other 0x20⟩ ∧
      pack ⟨1, .little, .pdp, .other 0x20⟩ = pack ⟨1, .little, .pdp, .arm⟩ ∧
      pack ⟨1, .little, .pdp, .other 0x77⟩ ≠ pack ⟨1, .little, .pdp, .arm⟩ := by
  obtain ⟨words, classifiers, injective, codes⟩ := packing_exact
  have canonical : (Alignment.other 0x77).Canonical := by decide
  have arm : Alignment.arm.Canonical := by decide
  refine ⟨(words 0xf9770001).1, (words 0x32770001).2.2.mpr (by decide),
    (classifiers _).2.2.2.mpr canonical, ?_, (codes _ _).mpr ⟨rfl, rfl, rfl, rfl⟩, ?_⟩
  · exact fun back => absurd ((classifiers _).2.2.2.mp back) (by decide)
  · exact fun same => absurd (congrArg alignment (injective _ _ canonical arm same)) (by decide)

end Classifier

end ModuleLink
