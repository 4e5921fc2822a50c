import ModuleLink.Envelopes

/-! # The fields of a classifier word

No two fields of a packed classifier share a bit. The alignment is the second byte of the word, and
data is packed exactly if that byte is zero. -/
namespace ModuleLink

/-- A field that begins above all bits of a word is added to it. -/
theorem toNat_or_shiftLeft {low field place : UInt32} {unit : Nat} (hp : place.toNat < 32)
    (hu : 1 <<< place.toNat = unit) (hl : low.toNat < unit) (hf : field.toNat * unit < 4294967296) :
    (low ||| field <<< place).toNat = low.toNat + field.toNat * unit := by
  rw [Nat.one_shiftLeft] at hu
  subst hu
  rw [UInt32.toNat_or, UInt32.toNat_shiftLeft, Nat.mod_eq_of_lt hp, Nat.shiftLeft_eq,
    Nat.mod_eq_of_lt hf, Nat.or_comm, ← Nat.shiftLeft_eq, ← Nat.shiftLeft_add_eq_or_of_lt hl,
    Nat.add_comm]

theorem ByteOrder.code_lt (order : ByteOrder) : order.code.toNat < 4 := by
  cases order <;> decide

theorem ByteOrder.ofCode_code (order : ByteOrder) : ofCode order.code = order := by
  cases order <;> decide

namespace Alignment

theorem code_ofCode (code : UInt8) : (ofCode code).code = code := by
  unfold ofCode
  repeat' split
  all_goals simp [Alignment.code, *]

theorem ofCode_eq_packed_iff (code : UInt8) : ofCode code = packed ↔ code = 0 := by
  constructor
  · intro h
    rw [← code_ofCode code, h]
    rfl
  · rintro rfl
    rfl

end Alignment

namespace Classifier

theorem toNat_pack (c : Classifier) :
    c.pack.toNat = c.classId.toNat + c.alignment.code.toNat * 65536 +
      c.dataOrder.code.toNat * 16777216 + c.classOrder.code.toNat * 268435456 := by
  have hi := c.classId.toNat_lt
  have ha := c.alignment.code.toNat_lt
  have hd := c.dataOrder.code_lt
  have hc := c.classOrder.code_lt
  have low : (c.classId.toUInt32 ||| c.alignment.code.toUInt32 <<< 16).toNat =
      c.classId.toNat + c.alignment.code.toNat * 65536 := by
    refine toNat_or_shiftLeft (by decide) rfl ?_ ?_ <;> simp <;> omega
  have middle : (c.classId.toUInt32 ||| c.alignment.code.toUInt32 <<< 16 |||
      c.dataOrder.code <<< 24).toNat =
        c.classId.toNat + c.alignment.code.toNat * 65536 + c.dataOrder.code.toNat * 16777216 := by
    rw [← low]
    refine toNat_or_shiftLeft (by decide) rfl ?_ ?_ <;> omega
  rw [← middle]
  refine toNat_or_shiftLeft (by decide) rfl ?_ ?_ <;> omega

theorem classId_unpack_pack (c : Classifier) : (unpack c.pack).classId = c.classId := by
  have hi := c.classId.toNat_lt
  apply UInt16.toNat_inj.mp
  simp only [unpack, UInt32.toNat_toUInt16, toNat_pack]
  omega

theorem alignment_unpack_pack (c : Classifier) :
    (unpack c.pack).alignment = .ofCode c.alignment.code := by
  have ha := c.alignment.code.toNat_lt
  have hi := c.classId.toNat_lt
  have byte : (c.pack >>> 16).toUInt8 = c.alignment.code := by
    apply UInt8.toNat_inj.mp
    simp [Nat.shiftRight_eq_div_pow, toNat_pack]
    omega
  simp only [unpack]
  rw [byte]

theorem dataOrder_unpack_pack (c : Classifier) :
    (unpack c.pack).dataOrder = c.dataOrder := by
  have ha := c.alignment.code.toNat_lt
  have hi := c.classId.toNat_lt
  have hd := c.dataOrder.code_lt
  have hc := c.classOrder.code_lt
  have field : c.pack >>> 24 &&& 0xf = c.dataOrder.code := by
    apply UInt32.toNat_inj.mp
    simp [Nat.shiftRight_eq_div_pow, toNat_pack, Nat.and_two_pow_sub_one_eq_mod _ 4]
    omega
  simp only [unpack]
  rw [field, ByteOrder.ofCode_code]

theorem classOrder_unpack_pack (c : Classifier) :
    (unpack c.pack).classOrder = c.classOrder := by
  have ha := c.alignment.code.toNat_lt
  have hi := c.classId.toNat_lt
  have hd := c.dataOrder.code_lt
  have field : c.pack >>> 28 = c.classOrder.code := by
    apply UInt32.toNat_inj.mp
    simp [Nat.shiftRight_eq_div_pow, toNat_pack]
    omega
  simp only [unpack]
  rw [field, ByteOrder.ofCode_code]

/-- Packing loses at most which name an alignment has. -/
theorem unpack_pack {c : Classifier} (named : .ofCode c.alignment.code = c.alignment) :
    unpack c.pack = c := by
  have alignment := (alignment_unpack_pack c).trans named
  have classId := classId_unpack_pack c
  have dataOrder := dataOrder_unpack_pack c
  have classOrder := classOrder_unpack_pack c
  generalize unpack c.pack = d at alignment classId dataOrder classOrder
  cases c
  cases d
  simp_all only

end Classifier

end ModuleLink
