import ModuleLink.Proofs.ForeignLayouts

/-! # When decoding a segment gives what its formatter gives

A segment of flat data in the host's order is given out as it is, without asking the formatter. For
raw bytes and for texts this makes no difference. For integers it does: a segment in the host's order
is accepted whatever its length, and the same segment in any other order only if it holds whole
words. -/
namespace ModuleLink

namespace Formatter

/-- The formatters that every module has. -/
def builtIn : List Formatter := [raw, int32Array, text]

theorem mem_builtIn {f : Formatter} : f ∈ builtIn ↔ f = raw ∨ f = int32Array ∨ f = text := by
  simp [builtIn]

theorem int32Array_decode (wire : Bytes) (order : ByteOrder) :
    int32Array.decode wire order =
      if wire.length % 4 ≠ 0 then .error (.misaligned wire.length 4)
      else if order = .host then .ok wire else toHostWords order wire := by
  show (checkWords wire >>= fun _ => _) = _
  by_cases whole : wire.length % 4 = 0
  · rw [checkWords, if_pos whole, if_neg (not_not.mpr whole)]
    rfl
  · rw [checkWords, if_neg whole, if_pos whole]
    rfl

theorem isOk_toHostWords {order : ByteOrder} (known : order ≠ .unknown) (wire : Bytes) :
    (toHostWords order wire).isOk = true := by
  fun_induction toHostWords order wire with
  | case1 a b c d rest none =>
    cases order with
    | unknown => exact absurd rfl known
    | big | little | pdp => cases none
  | case2 a b c d rest w read ih =>
    cases converted : toHostWords order rest with
    | error e =>
      rw [converted] at ih
      cases ih
    | ok words => rfl
  | case3 => rfl

theorem isOk_int32Array_decode_iff {wire : Bytes} (some : wire ≠ []) (order : ByteOrder) :
    (int32Array.decode wire order).isOk = true ↔ order ≠ .unknown ∧ wire.length % 4 = 0 := by
  by_cases whole : wire.length % 4 = 0
  · by_cases known : order = .unknown
    · subst known
      rw [int32Array_decode_unknown some whole]
      simp [Except.isOk, Except.toBool]
    · rw [int32Array_decode, if_neg (not_not.mpr whole)]
      refine iff_of_true ?_ ⟨known, whole⟩
      split
      · rfl
      · exact isOk_toHostWords known wire
  · rw [int32Array_decode, if_pos whole]
    simp [Except.isOk, Except.toBool, whole]

end Formatter

namespace Envelope

def segment (m : Envelope) : Segment → Bytes
  | .classData => m.classData
  | .payload => m.payload

def order (m : Envelope) : Segment → ByteOrder
  | .classData => m.classifier.classOrder
  | .payload => m.classifier.dataOrder

/-- What a module makes of a segment. -/
def decoded (m : Envelope) (formatter : Formatter) : Segment → Except FrameError (Option Bytes)
  | .classData => m.decodeClass formatter
  | .payload => m.decodePayload formatter

/-- What the formatter makes of a segment. -/
def formatted (m : Envelope) (formatter : Formatter) (part : Segment) :
    Except FrameError (Option Bytes) :=
  ((formatter.decode (m.segment part) (m.order part)).mapError .format).map some

variable {m : Envelope} {formatter : Formatter} {part : Segment}

theorem decoded_eq (packed : m.classifier.alignment = .packed) (present : m.segment part ≠ []) :
    m.decoded formatter part =
      if formatter.flat ∧ m.order part = .host then .ok (some (m.segment part))
      else m.formatted formatter part := by
  cases part with
  | classData => exact decodeSegment_packed present packed
  | payload => exact decodeSegment_packed present packed

def Uneven (m : Envelope) (formatter : Formatter) (part : Segment) : Prop :=
  formatter = .int32Array ∧ m.order part = .host ∧ (m.segment part).length % 4 ≠ 0

theorem decoded_of_uneven (packed : m.classifier.alignment = .packed)
    (present : m.segment part ≠ []) (uneven : m.Uneven formatter part) :
    m.decoded formatter part = .ok (some (m.segment part)) ∧
      m.formatted formatter part =
        .error (.format (.misaligned (m.segment part).length 4)) := by
  obtain ⟨rfl, host, broken⟩ := uneven
  refine ⟨?_, ?_⟩
  · rw [decoded_eq packed present, if_pos ⟨rfl, host⟩]
  · rw [formatted, Formatter.int32Array_decode, if_pos broken]
    rfl

theorem decoded_of_even (packed : m.classifier.alignment = .packed)
    (present : m.segment part ≠ []) (known : formatter ∈ Formatter.builtIn)
    (even : ¬ m.Uneven formatter part) :
    m.decoded formatter part = m.formatted formatter part := by
  rw [decoded_eq packed present]
  split
  · rename_i short
    obtain ⟨flat, host⟩ := short
    rcases Formatter.mem_builtIn.mp known with rfl | rfl | rfl
    · rfl
    · have whole : ¬ (m.segment part).length % 4 ≠ 0 := fun broken => even ⟨rfl, host, broken⟩
      rw [formatted, Formatter.int32Array_decode, if_neg whole, if_pos host]
      rfl
    · cases flat
  · rfl

theorem isOk_formatted :
    (m.formatted formatter part).isOk = (formatter.decode (m.segment part) (m.order part)).isOk := by
  rw [formatted]
  cases formatter.decode (m.segment part) (m.order part) <;> rfl

/-- Decoding a segment gives what a formatter of every module gives, the same bytes or the same error,
except for integers in the host's order that are no whole words: those the formatter refuses, and the
segment is given out as it is. So integers of any length are accepted in the host's order, and only
whole words in another one. -/
theorem decoded_eq_formatted_iff (made : m.Made) (known : formatter ∈ Formatter.builtIn)
    (present : m.segment part ≠ []) :
    (m.decoded formatter part = m.formatted formatter part ↔ ¬ m.Uneven formatter part) ∧
    (m.Uneven formatter part →
      m.decoded formatter part = .ok (some (m.segment part)) ∧
      m.formatted formatter part = .error (.format (.misaligned (m.segment part).length 4))) ∧
    ((m.decoded .int32Array part).isOk = true ↔
      m.order part = .host ∨ m.order part ≠ .unknown ∧ (m.segment part).length % 4 = 0) := by
  have packed := made.sound.packed
  refine ⟨⟨fun same uneven => ?_, decoded_of_even packed present known⟩,
    decoded_of_uneven packed present, ?_⟩
  · obtain ⟨accepted, refused⟩ := decoded_of_uneven packed present uneven
    rw [accepted, refused] at same
    cases same
  · rw [decoded_eq packed present]
    by_cases host : m.order part = .host
    · rw [if_pos ⟨rfl, host⟩]
      exact iff_of_true rfl (.inl host)
    · rw [if_neg fun short => host short.2, isOk_formatted,
        Formatter.isOk_int32Array_decode_iff present]
      exact (or_iff_right host).symm

/-- Three bytes are integers if the sender is a machine like the host, and are none if it is not. -/
theorem accepts_threeBytes :
    letteredEnvelope.Made ∧ letteredEnvelope.order .payload = .host ∧
      letteredEnvelope.decodePayload .int32Array = .ok (some [1, 2, 3]) ∧
      Formatter.int32Array.decode letteredEnvelope.payload .host = .error (.misaligned 3 4) ∧
      (classified 0x21000004 [1, 2, 3]).decodePayload .int32Array =
        .error (.format (.misaligned 3 4)) :=
  ⟨lettered_made, by decide, by decide, by decide, by decide⟩

theorem decoded_eq_formatted_iff_lettered :
    letteredEnvelope.Uneven .int32Array .payload ∧
      letteredEnvelope.decoded .int32Array .payload ≠
        letteredEnvelope.formatted .int32Array .payload ∧
      letteredEnvelope.decoded .text .classData = letteredEnvelope.formatted .text .classData ∧
      letteredEnvelope.decoded .text .classData = .ok (some [97, 98]) := by
  have uneven : letteredEnvelope.Uneven .int32Array .payload := ⟨rfl, by decide, by decide⟩
  have numbers := @decoded_eq_formatted_iff letteredEnvelope _ .payload lettered_made
    (Formatter.mem_builtIn.mpr (.inr (.inl rfl))) (by decide)
  have letters := @decoded_eq_formatted_iff letteredEnvelope _ .classData lettered_made
    (Formatter.mem_builtIn.mpr (.inr (.inr rfl))) (by decide)
  have even : ¬ letteredEnvelope.Uneven .text .classData := fun h =>
    absurd (congrArg Formatter.name h.1) (by decide)
  exact ⟨uneven, fun same => numbers.1.mp same uneven, letters.1.mpr even, by decide +kernel⟩

end Envelope

end ModuleLink
