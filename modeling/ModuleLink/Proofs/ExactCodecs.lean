import ModuleLink.Proofs.ReplacedClasses

/-! # Formatters as exact codecs

The formatters of every module write the values of their domain and no others, in as many bytes as they
announce, and read them back. They also read what nobody has written with them: the bytes and the order
come from another machine and may be anything. Here stands for each of them which bytes it accepts and
what it makes of them, and that in the host's order it takes nothing for a value that it would write
differently. -/
namespace ModuleLink

namespace ByteOrder

variable {order : ByteOrder} {a b c d : UInt8} {w : UInt32}

/-- The bytes begin with a length in this order and a value of this length. What follows is not
looked at. -/
def Opens (order : ByteOrder) (wire value : Bytes) : Prop :=
  ∃ length head rest, order.spell? length = some head ∧ length.toNat = value.length ∧
    wire = head ++ value ++ rest

theorem word?_eq_some_iff : order.word? a b c d = some w ↔ order.spell? w = some [a, b, c, d] := by
  constructor
  · intro read
    cases order with
    | unknown => cases read
    | big | little | pdp =>
      obtain rfl := Option.some.inj read
      have spelled := fun a b c d => bigEndian_wordOfBytes a b c d
      simp only [bigEndian, List.cons.injEq] at spelled
      simp only [spell?, bigEndian, littleEndian, spelled]
  · intro spelled
    have known : order ≠ .unknown := fun unknown => by
      subst unknown
      cases spelled
    obtain ⟨a', b', c', d', spelled', read⟩ := spell_read known w
    simp only [spelled', Option.some.injEq, List.cons.injEq] at spelled
    obtain ⟨rfl, rfl, rfl, rfl, -⟩ := spelled
    exact read

theorem eq_of_spell {head : Bytes} (spelled : order.spell? w = some head) :
    ∃ a b c d, head = [a, b, c, d] := by
  cases order with
  | unknown => cases spelled
  | big | little | pdp => exact ⟨_, _, _, _, (Option.some.inj spelled).symm⟩

theorem Opens.ne_nil {wire value : Bytes} (opens : order.Opens wire value) : wire ≠ [] := by
  obtain ⟨length, head, rest, spelled, -, rfl⟩ := opens
  obtain ⟨a, b, c, d, rfl⟩ := eq_of_spell spelled
  exact nofun

end ByteOrder

namespace Formatter

/-- A formatter writes the values of its domain, announces how long they get, reads them back in the
host's order, and reads only what it would write, followed by bytes that it ignores. -/
structure Exact (f : Formatter) (domain : Bytes → Prop) : Prop where
  encodes : ∀ value, (∃ wire, f.encode value = .ok wire) ↔ domain value
  announces : ∀ value wire, f.encode value = .ok wire → f.wireSize value = .ok wire.length
  readsBack : ∀ value wire, f.encode value = .ok wire → f.decode wire .host = .ok value
  writesBack : ∀ wire value, f.decode wire .host = .ok value →
    ∃ size, f.wireSize value = .ok size ∧ f.encode value = .ok (wire.take size)

theorem raw_exact : raw.Exact fun _ => True where
  encodes value := iff_of_true ⟨value, rfl⟩ trivial
  announces := raw_announces.size
  readsBack value wire h := raw_faithful value wire h ▸ rfl
  writesBack wire value h := by
    obtain rfl := Except.ok.inj h
    exact ⟨_, rfl, congrArg Except.ok (List.take_length).symm⟩

/-! ### Integers -/

theorem int32Array_decode_host {wire value : Bytes} :
    int32Array.decode wire .host = .ok value ↔ 4 ∣ wire.length ∧ value = wire := by
  rw [int32Array_decode, Nat.dvd_iff_mod_eq_zero]
  by_cases whole : wire.length % 4 = 0
  · simp [whole, eq_comm]
  · simp [whole]

theorem exists_layOut {order : ByteOrder} (known : order ≠ .unknown) {wire : Bytes}
    (whole : 4 ∣ wire.length) : ∃ numbers, order.layOut numbers = wire := by
  fun_induction toHostWords order wire with
  | case1 a b c d rest none =>
    cases order with
    | unknown => exact absurd rfl known
    | big | little | pdp => cases none
  | case2 a b c d rest w read ih =>
    obtain ⟨numbers, spelled⟩ := ih ((Nat.dvd_add_left (Nat.dvd_refl 4)).mp whole)
    refine ⟨w.toInt32 :: numbers, ?_⟩
    have first : order.spell? w.toInt32.toUInt32 = some [a, b, c, d] := by
      rw [UInt32.toUInt32_toInt32]
      exact ByteOrder.word?_eq_some_iff.mp read
    simp only [ByteOrder.layOut] at spelled
    simp only [ByteOrder.layOut, List.flatMap_cons, first, spelled]
    rfl
  | case3 wire short =>
    rcases wire with _ | ⟨a, _ | ⟨b, _ | ⟨c, _ | ⟨d, rest⟩⟩⟩⟩
    · exact ⟨[], rfl⟩
    · simp at whole
    · simp at whole
    · simp at whole
    · exact absurd rfl (short a b c d rest)

/-- Integers are accepted as a machine of the order laid them out, and become as this one does. -/
theorem int32Array_decode_eq_ok_iff {wire value : Bytes} {order : ByteOrder} :
    int32Array.decode wire order = .ok value ↔ wire = [] ∧ value = [] ∨ order ≠ .unknown ∧
      ∃ numbers, wire = order.layOut numbers ∧ value = ByteOrder.host.layOut numbers := by
  have empty : int32Array.decode [] order = .ok [] := by cases order <;> rfl
  constructor
  · intro h
    by_cases some : wire = []
    · subst some
      exact .inl ⟨rfl, Except.ok.inj (h.symm.trans empty)⟩
    · have accepted : (int32Array.decode wire order).isOk = true := h ▸ rfl
      obtain ⟨known, whole⟩ := (isOk_int32Array_decode_iff some order).mp accepted
      obtain ⟨numbers, rfl⟩ := exists_layOut known (Nat.dvd_of_mod_eq_zero whole)
      have converted := int32Array_decode_layOut known numbers
      exact .inr ⟨known, numbers, rfl, Except.ok.inj (h.symm.trans converted)⟩
  · rintro (⟨rfl, rfl⟩ | ⟨known, numbers, rfl, rfl⟩)
    · exact empty
    · exact int32Array_decode_layOut known numbers

theorem int32Array_accepts_iff {wire : Bytes} {order : ByteOrder} :
    (∃ value, int32Array.decode wire order = .ok value) ↔
      4 ∣ wire.length ∧ (order ≠ .unknown ∨ wire = []) := by
  simp only [int32Array_decode_eq_ok_iff]
  constructor
  · rintro ⟨value, ⟨rfl, -⟩ | ⟨known, numbers, rfl, -⟩⟩
    · exact ⟨Nat.dvd_zero 4, .inr rfl⟩
    · rw [ByteOrder.length_layOut known]
      exact ⟨Nat.dvd_mul_right 4 _, .inl known⟩
  · rintro ⟨whole, known | rfl⟩
    · obtain ⟨numbers, spelled⟩ := exists_layOut known whole
      exact ⟨_, .inr ⟨known, numbers, spelled.symm, rfl⟩⟩
    · exact ⟨[], .inl ⟨rfl, rfl⟩⟩

theorem length_int32Array_decode {wire value : Bytes} {order : ByteOrder}
    (accepted : int32Array.decode wire order = .ok value) : value.length = wire.length := by
  obtain ⟨rfl, rfl⟩ | ⟨known, numbers, rfl, rfl⟩ := int32Array_decode_eq_ok_iff.mp accepted
  · rfl
  · rw [ByteOrder.length_layOut known, ByteOrder.length_layOut (by decide)]

theorem int32Array_exact : int32Array.Exact fun value => 4 ∣ value.length where
  encodes value := by
    simp only [int32Array_encode_eq_ok_iff, exists_and_left, exists_eq, and_true]
  announces := int32Array_announces.size
  readsBack value wire h := by
    obtain ⟨whole, rfl⟩ := int32Array_encode_eq_ok_iff.mp h
    exact int32Array_decode_host.mpr ⟨whole, rfl⟩
  writesBack wire value h := by
    obtain ⟨whole, rfl⟩ := int32Array_decode_host.mp h
    have encoded := int32Array_encode_eq_ok_iff.mpr ⟨whole, rfl⟩
    refine ⟨value.length, int32Array_announces.size _ _ encoded, ?_⟩
    rw [List.take_length, encoded]

/-! ### Texts -/

theorem text_decode_eq_ok_iff {wire value : Bytes} {order : ByteOrder} :
    text.decode wire order = .ok value ↔ order.Opens wire value ∧ isText value = true := by
  constructor
  · intro h
    simp only [text] at h
    split at h
    case h_2 => cases h
    case h_1 a b c d rest =>
    split at h
    case h_1 => cases h
    case h_2 length read =>
    split at h
    case isTrue => cases h
    case isFalse long =>
    split at h
    case isFalse => cases h
    case isTrue valid =>
    obtain rfl := Except.ok.inj h
    refine ⟨⟨length, [a, b, c, d], rest.drop length.toNat, ByteOrder.word?_eq_some_iff.mp read, ?_,
      ?_⟩, valid⟩
    · rw [List.length_take, Nat.min_eq_left (Nat.not_lt.mp long)]
    · rw [List.append_assoc, List.take_append_drop]
      rfl
  · rintro ⟨⟨length, head, rest, spelled, size, rfl⟩, valid⟩
    obtain ⟨a, b, c, d, rfl⟩ := ByteOrder.eq_of_spell spelled
    have read := ByteOrder.word?_eq_some_iff.mpr spelled
    have long : ¬ (value ++ rest).length < length.toNat := by
      rw [size, List.length_append]
      omega
    simp only [text, List.cons_append, List.nil_append, read, if_neg long]
    rw [size, List.take_left, if_pos valid]

theorem text_exact :
    text.Exact fun value => (∃ s, textBytes s = value) ∧ value.length < UInt32.size where
  encodes value := by
    simp only [text_encode_eq_ok_iff, ← isText_iff, exists_and_left, exists_eq, and_true]
  announces := text_announces.size
  readsBack value wire h := text_faithful value wire h
  writesBack wire value h := by
    obtain ⟨⟨length, head, rest, spelled, size, rfl⟩, valid⟩ := text_decode_eq_ok_iff.mp h
    have short : value.length < UInt32.size := size ▸ length.toNat_lt
    obtain rfl : littleEndian length = head := Option.some.inj spelled
    refine ⟨4 + value.length, rfl, text_encode_eq_ok_iff.mpr ⟨valid, short, ?_⟩⟩
    rw [← size, UInt32.ofNat_toNat]
    exact List.take_left' (by rw [List.length_append, size]; rfl)

/-! ### All of them -/

/-- The formatters of every module are exact. Raw bytes are accepted as they are. Integers are accepted
if they are whole words and the order is known, unless there are none, and stay as many. A text is
accepted exactly if the bytes begin with its length in an order that is known and it is all there. In
the host's order, what was accepted is written as it was, less what followed a text. -/
theorem builtIn_exact :
    raw.Exact (fun _ => True) ∧ int32Array.Exact (fun value => 4 ∣ value.length) ∧
    text.Exact (fun value => (∃ s, textBytes s = value) ∧ value.length < UInt32.size) ∧
    ∀ (wire value : Bytes) (order : ByteOrder),
      raw.decode wire order = .ok wire ∧
      ((∃ words, int32Array.decode wire order = .ok words) ↔
        4 ∣ wire.length ∧ (order ≠ .unknown ∨ wire = [])) ∧
      (int32Array.decode wire order = .ok value → value.length = wire.length) ∧
      (text.decode wire order = .ok value ↔
        order.Opens wire value ∧ ∃ s, textBytes s = value) ∧
      raw.encode wire = .ok wire ∧
      (int32Array.decode wire .host = .ok value → int32Array.encode value = .ok wire) ∧
      (text.decode wire .host = .ok value →
        text.encode value = .ok (wire.take (4 + value.length))) := by
  refine ⟨raw_exact, int32Array_exact, text_exact, fun wire value order =>
    ⟨rfl, int32Array_accepts_iff, length_int32Array_decode, ?_, rfl, fun accepted => ?_,
      fun accepted => ?_⟩⟩
  · rw [text_decode_eq_ok_iff, isText_iff]
  · obtain ⟨whole, rfl⟩ := int32Array_decode_host.mp accepted
    exact int32Array_encode_eq_ok_iff.mpr ⟨whole, rfl⟩
  · obtain ⟨size, announced, written⟩ := text_exact.writesBack wire value accepted
    obtain rfl := Except.ok.inj announced
    exact written

/-- Two letters behind their length, as a machine with the middle order sends them, and a byte more. In
the host's order their length would be 131072, and they are refused. -/
theorem builtIn_exact_letters :
    let wire : Bytes := [0, 0, 2, 0, 97, 98, 7]
    text.decode wire .pdp = .ok [97, 98] ∧ ByteOrder.pdp.Opens wire [97, 98] ∧
      text.decode wire .host = .error (.truncated 131076 7) ∧
      text.encode [97, 98] = .ok [2, 0, 0, 0, 97, 98] ∧
      ¬ ∃ words, int32Array.decode wire .pdp = .ok words := by
  obtain ⟨-, -, -, exact⟩ := builtIn_exact
  obtain ⟨-, accepts, -, reads, -, -, -⟩ := exact [0, 0, 2, 0, 97, 98, 7] [97, 98] .pdp
  obtain ⟨-, -, -, -, -, -, writes⟩ := exact [2, 0, 0, 0, 97, 98] [97, 98] .host
  have read : text.decode [0, 0, 2, 0, 97, 98, 7] .pdp = .ok [97, 98] := by decide +kernel
  refine ⟨read, (reads.mp read).1, by decide +kernel, writes (by decide +kernel), fun accepted => ?_⟩
  obtain ⟨whole, -⟩ := accepts.mp accepted
  exact absurd whole (by decide)

end Formatter

end ModuleLink
