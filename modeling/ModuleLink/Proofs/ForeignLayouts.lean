import ModuleLink.Proofs.EnvelopeRoundTrip
import ModuleLink.Proofs.TextCharacters

/-! # Envelopes from machines with other byte orders

A machine lays out the words of an envelope in its own order and says so in the classifier, for the
payload and for the class segment apart. Whichever the two orders are, the receiver has the integers
in its own layout and the text; in an order that it cannot read it has neither. -/
namespace ModuleLink

namespace ByteOrder

def layOut (order : ByteOrder) (numbers : List Int32) : Bytes :=
  numbers.flatMap fun n => (order.spell? n.toUInt32).getD []

def measured (order : ByteOrder) (text : Bytes) : Bytes :=
  (order.spell? (.ofNat text.length)).getD [] ++ text

variable {order : ByteOrder}

theorem spell_read (known : order ≠ .unknown) (w : UInt32) :
    ∃ a b c d, order.spell? w = some [a, b, c, d] ∧ order.word? a b c d = some w := by
  have back := congrArg some (wordOfBytes_bigEndian w)
  cases order with
  | unknown => exact absurd rfl known
  | big | little | pdp => exact ⟨_, _, _, _, rfl, back⟩

theorem length_layOut (known : order ≠ .unknown) (numbers : List Int32) :
    (order.layOut numbers).length = 4 * numbers.length := by
  induction numbers with
  | nil => rfl
  | cons n numbers ih =>
    obtain ⟨a, b, c, d, spelled, -⟩ := spell_read known n.toUInt32
    simp only [layOut] at ih
    simp only [layOut, List.flatMap_cons, spelled, Option.getD_some, List.length_append,
      List.length_cons, List.length_nil, ih]
    omega

theorem layOut_ne_nil {numbers : List Int32} (known : order ≠ .unknown) (some : numbers ≠ []) :
    order.layOut numbers ≠ [] := by
  rw [← List.length_pos_iff, length_layOut known]
  exact Nat.mul_pos (by decide) (List.length_pos_iff.mpr some)

theorem length_measured (known : order ≠ .unknown) (text : Bytes) :
    (order.measured text).length = 4 + text.length := by
  obtain ⟨a, b, c, d, spelled, -⟩ := spell_read known (.ofNat text.length)
  simp only [measured, spelled, Option.getD_some, List.length_append, List.length_cons,
    List.length_nil]

theorem ofCode_eq_unknown {code : UInt32} (h : code ≠ 1 ∧ code ≠ 2 ∧ code ≠ 3) :
    ofCode code = .unknown := by
  rw [ofCode, if_neg h.1, if_neg h.2.1, if_neg h.2.2]

end ByteOrder

namespace Formatter

variable {order : ByteOrder}

theorem toHostWords_layOut (known : order ≠ .unknown) (numbers : List Int32) :
    toHostWords order (order.layOut numbers) = .ok (ByteOrder.host.layOut numbers) := by
  induction numbers with
  | nil => rfl
  | cons n numbers ih =>
    obtain ⟨a, b, c, d, spelled, read⟩ := ByteOrder.spell_read known n.toUInt32
    have first : order.layOut (n :: numbers) = a :: b :: c :: d :: order.layOut numbers := by
      simp only [ByteOrder.layOut, List.flatMap_cons, spelled]
      rfl
    rw [first, toHostWords, read]
    dsimp only
    rw [ih]
    rfl

/-- The host's own layout is taken as it is, any other is converted. -/
theorem int32Array_decode_layOut (known : order ≠ .unknown) (numbers : List Int32) :
    int32Array.decode (order.layOut numbers) order = .ok (ByteOrder.host.layOut numbers) := by
  have whole : checkWords (order.layOut numbers) = .ok () := by
    rw [checkWords, ByteOrder.length_layOut known, if_pos (Nat.mul_mod_right 4 _)]
  show (checkWords (order.layOut numbers) >>= fun _ => _) = _
  rw [whole]
  show (if order = .host then _ else _) = _
  by_cases host : order = .host
  · rw [if_pos host, host]
    rfl
  · rw [if_neg host]
    exact toHostWords_layOut known numbers

theorem text_decode_measured (known : order ≠ .unknown) {value : Bytes}
    (short : value.length ≤ maxLength) (valid : isText value) :
    text.decode (order.measured value) order = .ok value := by
  obtain ⟨a, b, c, d, spelled, read⟩ := ByteOrder.spell_read known (.ofNat value.length)
  have wire : order.measured value = a :: b :: c :: d :: value := by
    simp only [ByteOrder.measured, spelled]
    rfl
  rw [wire]
  simp only [text, read, toNat_ofNat_length short, Nat.lt_irrefl, if_false, List.take_length]
  exact if_pos valid

theorem int32Array_decode_unknown {wire : Bytes} (some : wire ≠ []) (whole : wire.length % 4 = 0) :
    int32Array.decode wire .unknown = .error (.unsupportedByteOrder .unknown) := by
  have checked : checkWords wire = .ok () := if_pos whole
  show (checkWords wire >>= fun _ => toHostWords .unknown wire) = _
  rw [checked]
  show toHostWords .unknown wire = _
  match wire with
  | a :: b :: c :: d :: rest => rfl
  | [] => exact absurd rfl some
  | [_] | [_, _] | [_, _, _] => cases whole

theorem text_decode_unknown {wire : Bytes} (long : 4 ≤ wire.length) :
    text.decode wire .unknown = .error (.unsupportedByteOrder .unknown) := by
  match wire with
  | a :: b :: c :: d :: rest => rfl
  | [] | [_] | [_, _] | [_, _, _] => simp at long

end Formatter

theorem decodeSegment_packed {formatter : Formatter} {wire : Bytes} {order : ByteOrder}
    {c : Classifier} (some : wire ≠ []) (packed : c.alignment = .packed) :
    decodeSegment formatter wire order c =
      if formatter.flat ∧ order = .host then .ok (.some wire)
      else ((formatter.decode wire order).mapError .format).map .some := by
  rw [decodeSegment, if_neg some, Classifier.ensurePacked_of_packed packed]
  show (if formatter.flat ∧ order = .host then _ else _) = _
  refine if_congr .rfl rfl ?_
  cases formatter.decode wire order <;> rfl

namespace Envelope

/-- Integers are decoded to the host's layout of them, in whichever order they come. -/
theorem decodePayload_layOut {m : Envelope} {order : ByteOrder} {numbers : List Int32}
    (packed : m.classifier.alignment = .packed) (written : m.classifier.dataOrder = order)
    (known : order ≠ .unknown) (some : numbers ≠ []) (payload : m.payload = order.layOut numbers) :
    m.decodePayload .int32Array = .ok (.some (ByteOrder.host.layOut numbers)) := by
  have filled : m.payload ≠ [] := payload ▸ ByteOrder.layOut_ne_nil known some
  rw [decodePayload, written, decodeSegment_packed filled packed, payload]
  split
  · rename_i host
    rw [host.2]
  · rw [Formatter.int32Array_decode_layOut known]
    rfl

/-- An envelope as another machine writes it: integers in one order behind a text with its length in
another one, and the header otherwise as it likes. -/
def foreign (header : Header) (classId : UInt16) (dataOrder classOrder : ByteOrder)
    (numbers : List Int32) (text : String) : Envelope :=
  let classData := classOrder.measured (textBytes text)
  let payload := dataOrder.layOut numbers
  { header := { header with
      classTotal := .ofNat classData.length
      messageTotal := .ofNat payload.length
      classifier := (Classifier.mk classId dataOrder classOrder .packed).pack }
    classData
    payload }

section Foreign

variable {header : Header} {classId : UInt16} {dataOrder classOrder : ByteOrder}
  {numbers : List Int32} {text : String}

theorem foreign_sound (known : dataOrder ≠ .unknown) (known' : classOrder ≠ .unknown)
    (numbersFit : 4 * numbers.length ≤ Formatter.maxLength)
    (textFits : 4 + (textBytes text).length ≤ Formatter.maxLength) :
    (foreign header classId dataOrder classOrder numbers text).Sound := by
  refine ⟨⟨toNat_ofNat_length ?_, toNat_ofNat_length ?_⟩, Classifier.alignment_unpack_pack _⟩
  · rwa [ByteOrder.length_measured known']
  · rwa [ByteOrder.length_layOut known]

theorem decodePayload_foreign (known : dataOrder ≠ .unknown) :
    (foreign header classId dataOrder classOrder numbers text).decodePayload .int32Array =
      .ok (if numbers = [] then none else some (ByteOrder.host.layOut numbers)) := by
  generalize hm : foreign header classId dataOrder classOrder numbers text = m
  have order : m.classifier.dataOrder = dataOrder := hm ▸ Classifier.dataOrder_unpack_pack _
  have packed : m.classifier.alignment = .packed := hm ▸ Classifier.alignment_unpack_pack _
  have payload : m.payload = dataOrder.layOut numbers := hm ▸ rfl
  by_cases none : numbers = []
  · subst none
    rw [decodePayload, order, payload]
    rfl
  · rw [if_neg none]
    exact decodePayload_layOut packed order known none payload

theorem decodeClass_foreign (known : classOrder ≠ .unknown)
    (textFits : (textBytes text).length ≤ Formatter.maxLength) :
    (foreign header classId dataOrder classOrder numbers text).decodeClass .text =
      .ok (some (textBytes text)) := by
  generalize hm : foreign header classId dataOrder classOrder numbers text = m
  have order : m.classifier.classOrder = classOrder := hm ▸ Classifier.classOrder_unpack_pack _
  have packed : m.classifier.alignment = .packed := hm ▸ Classifier.alignment_unpack_pack _
  have classData : m.classData = classOrder.measured (textBytes text) := hm ▸ rfl
  have some : classOrder.measured (textBytes text) ≠ [] := by
    rw [← List.length_pos_iff, ByteOrder.length_measured known]
    omega
  rw [decodeClass, order, classData, decodeSegment_packed some packed,
    Formatter.text_decode_measured known textFits (isText_textBytes text)]
  rfl

end Foreign

def dataOrderCode (m : Envelope) : UInt32 := m.header.classifier >>> 24 &&& 0xf

def classOrderCode (m : Envelope) : UInt32 := m.header.classifier >>> 28

theorem decodePayload_unknown {m : Envelope} (packed : m.classifier.alignment = .packed)
    (unknown : m.dataOrderCode ≠ 1 ∧ m.dataOrderCode ≠ 2 ∧ m.dataOrderCode ≠ 3)
    (some : m.payload ≠ []) (whole : m.payload.length % 4 = 0) :
    m.decodePayload .int32Array = .error (.format (.unsupportedByteOrder .unknown)) := by
  have order : m.classifier.dataOrder = .unknown := ByteOrder.ofCode_eq_unknown unknown
  rw [decodePayload, decodeSegment_packed some packed, order, if_neg nofun,
    Formatter.int32Array_decode_unknown some whole]
  rfl

theorem decodeClass_unknown {m : Envelope} (packed : m.classifier.alignment = .packed)
    (unknown : m.classOrderCode ≠ 1 ∧ m.classOrderCode ≠ 2 ∧ m.classOrderCode ≠ 3)
    (long : 4 ≤ m.classData.length) :
    m.decodeClass .text = .error (.format (.unsupportedByteOrder .unknown)) := by
  have order : m.classifier.classOrder = .unknown := ByteOrder.ofCode_eq_unknown unknown
  have some : m.classData ≠ [] := by
    rintro empty
    rw [empty] at long
    cases long
  rw [decodeClass, decodeSegment_packed some packed, order, if_neg nofun,
    Formatter.text_decode_unknown long]
  rfl

end Envelope

/-- Envelopes arrive from machines of every order, and are received and decoded to the same values. In
an order without a name nothing is decoded. -/
theorem receive_foreign {limits : Limits} {s : Source} (hs : ∀ turn ∈ s.turns, turn.goesOn) :
    (∀ header classId dataOrder classOrder numbers text rest,
      dataOrder ≠ .unknown → classOrder ≠ .unknown →
      4 * numbers.length ≤ min limits.payload Formatter.maxLength →
      4 + (textBytes text).length ≤ min limits.classData Formatter.maxLength →
      let m := Envelope.foreign header classId dataOrder classOrder numbers text
      s.unread = m.wire ++ rest →
        (receive s limits).1 = .ok m ∧ (receive s limits).2.unread = rest ∧
        m.decodePayload .int32Array =
          .ok (if numbers = [] then none else some (ByteOrder.host.layOut numbers)) ∧
        m.decodeClass .text = .ok (some (textBytes text))) ∧
    ∀ (m : Envelope) (rest : Bytes), m.Acceptable limits → s.unread = m.wire ++ rest →
      (receive s limits).1 = .ok m ∧ (receive s limits).2.unread = rest ∧
      (m.dataOrderCode ≠ 1 ∧ m.dataOrderCode ≠ 2 ∧ m.dataOrderCode ≠ 3 → m.payload ≠ [] →
        m.payload.length % 4 = 0 →
          m.decodePayload .int32Array = .error (.format (.unsupportedByteOrder .unknown))) ∧
      (m.classOrderCode ≠ 1 ∧ m.classOrderCode ≠ 2 ∧ m.classOrderCode ≠ 3 →
        4 ≤ m.classData.length →
          m.decodeClass .text = .error (.format (.unsupportedByteOrder .unknown))) := by
  have taken : ∀ (m : Envelope) (rest : Bytes), m.Sound → m.header.Fits limits →
      s.unread = m.wire ++ rest →
        (receive s limits).1 = .ok m ∧ (receive s limits).2.unread = rest := by
    intro m rest sound fits stream
    obtain ⟨verdict, yields⟩ := receive_frame hs sound.toSized fits stream
    exact ⟨verdict.trans sound.verdict, List.append_cancel_left (yields.unread.symm.trans stream)⟩
  constructor
  · intro header classId dataOrder classOrder numbers text rest known known' numbersFit textFits
    dsimp only
    intro stream
    obtain ⟨payloadFits, numbersFit⟩ := Nat.le_min.mp numbersFit
    obtain ⟨classFits, textFits⟩ := Nat.le_min.mp textFits
    have sound : (Envelope.foreign header classId dataOrder classOrder numbers text).Sound :=
      Envelope.foreign_sound known known' numbersFit textFits
    have fits : (Envelope.foreign header classId dataOrder classOrder numbers text).header.Fits
        limits := by
      refine ⟨?_, ?_⟩
      · rw [sound.classTotal]
        exact Nat.le_trans (Nat.le_of_eq (ByteOrder.length_measured known' _)) classFits
      · rw [sound.messageTotal]
        exact Nat.le_trans (Nat.le_of_eq (ByteOrder.length_layOut known _)) payloadFits
    obtain ⟨received, left⟩ := taken _ rest sound fits stream
    exact ⟨received, left, Envelope.decodePayload_foreign known,
      Envelope.decodeClass_foreign known' (Nat.le_of_add_left_le textFits)⟩
  · intro m rest acceptable stream
    have fits : m.header.Fits limits := (Header.check_eq_ok_iff _ _).mp acceptable.check
    obtain ⟨received, left⟩ := taken m rest ⟨acceptable.toSized, acceptable.packed⟩ fits stream
    exact ⟨received, left, Envelope.decodePayload_unknown acceptable.packed,
      Envelope.decodeClass_unknown acceptable.packed⟩

/-- Numbers from a middle-endian machine behind a text from a big-endian one, in small pieces. -/
def mixedOrders : Source where
  unread := (Envelope.foreign ⟨0, 0, noRef, 3, 0, noRef, 9⟩ 42 .pdp .big [1, -2] "ab").wire ++ [7]
  turns := [.move 5, .fail (.bare .interrupted), .move 24, .move 1]
  gathers := false

theorem receive_foreign_mixedOrders :
    (receive mixedOrders ⟨6, 8⟩).1 =
        .ok (.foreign ⟨0, 0, noRef, 3, 0, noRef, 9⟩ 42 .pdp .big [1, -2] "ab") ∧
      (receive mixedOrders ⟨6, 8⟩).2.unread = [7] ∧
      (Envelope.foreign ⟨0, 0, noRef, 3, 0, noRef, 9⟩ 42 .pdp .big [1, -2] "ab").payload =
        [0, 0, 1, 0, 255, 255, 254, 255] ∧
      (Envelope.foreign ⟨0, 0, noRef, 3, 0, noRef, 9⟩ 42 .pdp .big [1, -2] "ab").decodePayload
        .int32Array = .ok (some [1, 0, 0, 0, 254, 255, 255, 255]) ∧
      (Envelope.foreign ⟨0, 0, noRef, 3, 0, noRef, 9⟩ 42 .pdp .big [1, -2] "ab").decodeClass .text =
        .ok (some (textBytes "ab")) := by
  have goesOn : ∀ turn ∈ mixedOrders.turns, turn.goesOn := by decide
  obtain ⟨received, left, numbers, text⟩ := (@receive_foreign ⟨6, 8⟩ mixedOrders goesOn).1
    ⟨0, 0, noRef, 3, 0, noRef, 9⟩ 42 .pdp .big [1, -2] "ab" [7] (by decide) (by decide) (by decide)
    (by rw [textBytes_eq]; decide) rfl
  exact ⟨received, left, by decide, numbers, text⟩

end ModuleLink
