import ModuleLink.EnvelopeHeader

/-! # The bytes of a header

Words and their four bytes determine each other, and so do headers and their 28 bytes. -/
namespace ModuleLink

theorem toNat_wordOfBytes (a b c d : UInt8) :
    (wordOfBytes a b c d).toNat =
      a.toNat * 16777216 + b.toNat * 65536 + c.toNat * 256 + d.toNat := by
  have ha := a.toNat_lt
  have hb := b.toNat_lt
  have hc := c.toNat_lt
  have hd := d.toNat_lt
  have h : (wordOfBytes a b c d).toNat =
      ((a.toNat <<< 24 ||| b.toNat <<< 16) ||| c.toNat <<< 8) ||| d.toNat := by
    simp [wordOfBytes, Nat.shiftLeft_eq]
    rw [Nat.mod_eq_of_lt (by omega), Nat.mod_eq_of_lt (by omega), Nat.mod_eq_of_lt (by omega)]
  have e : a.toNat <<< 24 ||| b.toNat <<< 16 = (a.toNat <<< 8 ||| b.toNat) <<< 16 := by
    rw [Nat.shiftLeft_or_distrib, ← Nat.shiftLeft_add]
  rw [h, Nat.or_assoc]
  rw [e, ← Nat.shiftLeft_add_eq_or_of_lt (by omega) a.toNat]
  rw [← Nat.shiftLeft_add_eq_or_of_lt (by omega) c.toNat]
  rw [← Nat.shiftLeft_add_eq_or_of_lt (by simp only [Nat.shiftLeft_eq]; omega)]
  simp only [Nat.shiftLeft_eq]
  omega

theorem wordOfBytes_bigEndian (w : UInt32) :
    wordOfBytes (w >>> 24).toUInt8 (w >>> 16).toUInt8 (w >>> 8).toUInt8 w.toUInt8 = w := by
  have hw := w.toNat_lt
  apply UInt32.toNat_inj.mp
  rw [toNat_wordOfBytes]
  simp [Nat.shiftRight_eq_div_pow]
  omega

theorem bigEndian_wordOfBytes (a b c d : UInt8) :
    bigEndian (wordOfBytes a b c d) = [a, b, c, d] := by
  have ha := a.toNat_lt
  have hb := b.toNat_lt
  have hc := c.toNat_lt
  have hd := d.toNat_lt
  simp only [bigEndian, List.cons.injEq, ← UInt8.toNat_inj, and_true]
  refine ⟨?_, ?_, ?_, ?_⟩ <;> simp [toNat_wordOfBytes, Nat.shiftRight_eq_div_pow] <;> omega

namespace Header

@[simp] theorem length_encode (h : Header) : h.encode.length = size := rfl

theorem decode_encode (h : Header) (rest : Bytes) : decode (h.encode ++ rest) = h := by
  simp [decode, encode, words, bigEndian, wordAt, wordOfBytes_bigEndian]

theorem wordAt_eq {a : Bytes} {i : Nat} (h : i + 3 < a.length) :
    wordAt a i = wordOfBytes a[i] a[i + 1] a[i + 2] a[i + 3] := by
  simp only [wordAt, List.getD_eq_getElem?_getD]
  rw [List.getElem?_eq_getElem, List.getElem?_eq_getElem, List.getElem?_eq_getElem,
    List.getElem?_eq_getElem h]
  rfl

theorem bigEndian_wordAt {a : Bytes} {i : Nat} (h : i + 3 < a.length) :
    bigEndian (wordAt a i) ++ a.drop (i + 4) = a.drop i := by
  rw [wordAt_eq h, bigEndian_wordOfBytes, List.drop_eq_getElem_cons (show i < a.length by omega),
    List.drop_eq_getElem_cons (show i + 1 < a.length by omega),
    List.drop_eq_getElem_cons (show i + 2 < a.length by omega), List.drop_eq_getElem_cons h]
  rfl

theorem encode_decode {a : Bytes} (h : size ≤ a.length) :
    (decode a).encode ++ a.drop size = a := by
  have key : ∀ i, i + 3 < size → bigEndian (wordAt a i) ++ a.drop (i + 4) = a.drop i :=
    fun i hi => bigEndian_wordAt (Nat.lt_of_lt_of_le hi h)
  simp only [encode, words, decode, List.flatMap_cons, List.flatMap_nil, List.append_nil,
    List.append_assoc, UInt32.toUInt32_toInt32, size]
  rw [key 24 (by decide), key 20 (by decide), key 16 (by decide), key 12 (by decide),
    key 8 (by decide), key 4 (by decide), key 0 (by decide), List.drop_zero]

end Header

end ModuleLink
