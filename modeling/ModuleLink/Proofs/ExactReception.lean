import Mathlib.Tactic.Common
import ModuleLink.Proofs.ClassifierFields
import ModuleLink.Proofs.WriteLoops

/-! # What comes of arbitrary bytes

On a stream that goes on until it ends, an attempt to receive is decided by the bytes alone: a frame
within the limits is accepted or, after all of it was taken, refused for its alignment byte; a header
beyond the limits is taken alone; and what is cut is taken to its end. So a refused frame never moves
the frames behind it. -/
namespace ModuleLink

namespace Header

/-- The byte of the header that tells how fields were padded. -/
def alignmentByte (h : Header) : UInt8 := h.encode.getD 17 0

def bodyLength (h : Header) : Nat := h.classTotal.toNat + h.messageTotal.toNat

def Fits (h : Header) (limits : Limits) : Prop :=
  h.classTotal.toNat ≤ limits.classData ∧ h.messageTotal.toNat ≤ limits.payload

instance (h : Header) (limits : Limits) : Decidable (h.Fits limits) :=
  inferInstanceAs (Decidable (_ ∧ _))

theorem alignment_eq (h : Header) :
    (Classifier.unpack h.classifier).alignment = .ofCode h.alignmentByte := rfl

theorem Fits.check {h : Header} {limits : Limits} (fits : h.Fits limits) : h.check limits = .ok () :=
  (check_eq_ok_iff h limits).mpr fits

theorem check_classTotal {h : Header} {limits : Limits} (exceeds : limits.classData < h.classTotal.toNat) :
    h.check limits =
      .error (.segmentTooLarge .classData h.classTotal.toNat limits.classData) := by
  simp only [check, checkSegment]
  rw [if_pos exceeds]
  rfl

theorem check_messageTotal {h : Header} {limits : Limits}
    (within : h.classTotal.toNat ≤ limits.classData) (exceeds : limits.payload < h.messageTotal.toNat) :
    h.check limits =
      .error (.segmentTooLarge .payload h.messageTotal.toNat limits.payload) := by
  simp only [check, checkSegment]
  rw [if_neg (Nat.not_lt.mpr within), if_pos exceeds]
  rfl

end Header

/-- A frame is accepted if it is packed, and else refused for its alignment. -/
def Envelope.verdict (m : Envelope) : Except FrameError Envelope :=
  if m.header.alignmentByte = 0 then .ok m
  else .error (.unsupportedAlignment m.header.alignmentByte)

/-- What an attempt to receive makes of the bytes of a stream, and which bytes it leaves. -/
inductive Reading (limits : Limits) : Bytes → Except FrameError Envelope → Bytes → Prop
  | accepted {m : Envelope} {rest : Bytes} (sized : m.Sized) (fits : m.header.Fits limits)
      (packed : m.header.alignmentByte = 0) : Reading limits (m.wire ++ rest) (.ok m) rest
  | refused {m : Envelope} {rest : Bytes} (sized : m.Sized) (fits : m.header.Fits limits)
      (padded : m.header.alignmentByte ≠ 0) :
      Reading limits (m.wire ++ rest) (.error (.unsupportedAlignment m.header.alignmentByte)) rest
  | classTooLarge {h : Header} {rest : Bytes} (exceeds : limits.classData < h.classTotal.toNat) :
      Reading limits (h.encode ++ rest)
        (.error (.segmentTooLarge .classData h.classTotal.toNat limits.classData)) rest
  | payloadTooLarge {h : Header} {rest : Bytes} (within : h.classTotal.toNat ≤ limits.classData)
      (exceeds : limits.payload < h.messageTotal.toNat) :
      Reading limits (h.encode ++ rest)
        (.error (.segmentTooLarge .payload h.messageTotal.toNat limits.payload)) rest
  | cutHeader {bytes : Bytes} (short : bytes.length < Header.size) :
      Reading limits bytes (.error (.transport (.endOfStream Header.size bytes.length))) []
  | cutBody {h : Header} {body : Bytes} (fits : h.Fits limits) (short : body.length < h.bodyLength) :
      Reading limits (h.encode ++ body)
        (.error (.transport (.endOfStream h.bodyLength body.length))) []

def receiveEach (limits : Limits) : Nat → Source → List (Except FrameError Envelope) × Source
  | 0, s => ([], s)
  | n + 1, s =>
    let (result, t) := receive s limits
    let (results, u) := receiveEach limits n t
    (result :: results, u)

theorem Envelope.verdict_eq (m : Envelope) :
    m.classifier.ensurePacked.map (fun _ => m) = m.verdict := by
  have alignment : m.classifier.alignment = .ofCode m.header.alignmentByte :=
    m.header.alignment_eq
  simp only [verdict]
  split
  · rename_i packed
    rw [Classifier.ensurePacked_of_packed (by rw [alignment, packed]; rfl)]
    rfl
  · rename_i padded
    have other : m.classifier.alignment ≠ .packed := by
      rw [alignment]
      exact mt (Alignment.ofCode_eq_packed_iff _).mp padded
    rw [Classifier.ensurePacked_of_ne other, alignment, Alignment.code_ofCode]
    rfl

/-- Every stream starts in one of these ways. -/
theorem reading_total (limits : Limits) (bytes : Bytes) :
    ∃ result rest, Reading limits bytes result rest := by
  by_cases short : bytes.length < Header.size
  · exact ⟨_, _, .cutHeader short⟩
  · have whole := Header.encode_decode (Nat.not_lt.mp short)
    generalize Header.decode bytes = h at whole
    rw [← whole]
    generalize bytes.drop Header.size = rest
    by_cases hc : limits.classData < h.classTotal.toNat
    · exact ⟨_, _, .classTooLarge hc⟩
    · by_cases hp : limits.payload < h.messageTotal.toNat
      · exact ⟨_, _, .payloadTooLarge (Nat.not_lt.mp hc) hp⟩
      · have fits : h.Fits limits := ⟨Nat.not_lt.mp hc, Nat.not_lt.mp hp⟩
        by_cases hb : rest.length < h.bodyLength
        · exact ⟨_, _, .cutBody fits hb⟩
        · let m : Envelope := .ofBody h (rest.take h.bodyLength)
          have sized : m.Sized :=
            Envelope.sized_ofBody (List.length_take_of_le (Nat.not_lt.mp hb))
          have split : h.encode ++ rest = m.wire ++ rest.drop h.bodyLength := by
            rw [Envelope.wire_ofBody, List.append_assoc, List.take_append_drop]
          rw [split]
          by_cases ha : h.alignmentByte = 0
          · exact ⟨_, _, .accepted (m := m) sized fits ha⟩
          · exact ⟨_, _, .refused (m := m) sized fits ha⟩

section GoesOn

variable {s : Source} {limits : Limits}

theorem receiveBody_whole {m : Envelope} {rest : Bytes} (hs : ∀ turn ∈ s.turns, turn.goesOn)
    (sized : m.Sized) (hu : s.unread = m.classData ++ m.payload ++ rest) :
    (receiveBody s m.header).1 = m.verdict ∧
      s.Yields (m.classData ++ m.payload) (receiveBody s m.header).2 := by
  have length : (m.classData ++ m.payload).length =
      m.header.classTotal.toNat + m.header.messageTotal.toNat := by
    rw [List.length_append, sized.classTotal, sized.messageTotal]
  have fills := s.readScattered_fills m.header.classTotal.toNat m.header.messageTotal.toNat
  have enough : m.header.classTotal.toNat + m.header.messageTotal.toNat ≤ s.unread.length := by
    rw [hu, List.length_append]
    omega
  have ok := Source.readScattered_goesOn hs enough
  unfold receiveBody receiveSegments
  generalize s.readScattered m.header.classTotal.toNat m.header.messageTotal.toNat = r at fills ok ⊢
  obtain ⟨⟨got, result⟩, t⟩ := r
  obtain rfl : result = .ok () := ok
  have yields := fills.yields
  obtain ⟨rfl, -⟩ : got = m.classData ++ m.payload ∧ t.unread = rest :=
    List.append_inj (yields.unread.symm.trans hu) ((fills.full rfl).trans length.symm)
  refine ⟨?_, yields⟩
  dsimp only
  rw [List.splitAt_eq, sized.classTotal, List.take_left, List.drop_left]
  exact m.verdict_eq

/-- A frame within the limits is taken whole, and accepted or refused for its alignment. -/
theorem receive_frame {m : Envelope} {rest : Bytes} (hs : ∀ turn ∈ s.turns, turn.goesOn)
    (sized : m.Sized) (fits : m.header.Fits limits) (hu : s.unread = m.wire ++ rest) :
    (receive s limits).1 = m.verdict ∧ s.Yields m.wire (receive s limits).2 := by
  rw [Envelope.wire_eq, List.append_assoc] at hu
  obtain ⟨t, hh, hy⟩ := receiveHeader_goesOn hs hu
  have left := List.append_cancel_left (hy.unread.symm.trans hu)
  obtain ⟨verdict, body⟩ := receiveBody_whole (hy.goesOn hs) sized left
  simp only [receive, hh, fits.check]
  rw [Envelope.wire_eq]
  exact ⟨verdict, hy.trans body⟩

theorem receive_tooLarge {h : Header} {rest : Bytes} {e : FrameError}
    (hs : ∀ turn ∈ s.turns, turn.goesOn) (hc : h.check limits = .error e)
    (hu : s.unread = h.encode ++ rest) :
    (receive s limits).1 = .error e ∧ (receive s limits).2.unread = rest := by
  obtain ⟨t, hh, hy⟩ := receiveHeader_goesOn hs hu
  simp only [receive, hh, hc]
  exact ⟨trivial, List.append_cancel_left (hy.unread.symm.trans hu)⟩

theorem receive_cutHeader (hs : ∀ turn ∈ s.turns, turn.goesOn) (he : s.exhaustion = .ended)
    (short : s.unread.length < Header.size) :
    (receive s limits).1 = .error (.transport (.endOfStream Header.size s.unread.length)) ∧
      (receive s limits).2.unread = [] := by
  obtain ⟨cut, left⟩ := Source.readExact_cut hs he short
  simp only [receive, receiveHeader, cut]
  exact ⟨trivial, left⟩

theorem receive_cutBody {h : Header} {body : Bytes} (hs : ∀ turn ∈ s.turns, turn.goesOn)
    (he : s.exhaustion = .ended) (fits : h.Fits limits) (short : body.length < h.bodyLength)
    (hu : s.unread = h.encode ++ body) :
    (receive s limits).1 = .error (.transport (.endOfStream h.bodyLength body.length)) ∧
      (receive s limits).2.unread = [] := by
  obtain ⟨t, hh, hy⟩ := receiveHeader_goesOn hs hu
  obtain rfl := List.append_cancel_left (hy.unread.symm.trans hu)
  obtain ⟨cut, left⟩ :=
    Source.readScattered_cut (hy.goesOn hs) (hy.exhaustion.trans he) short
  simp only [receive, hh, fits.check, receiveBody, receiveSegments, cut]
  exact ⟨rfl, left⟩

theorem receive_of_reading (hs : ∀ turn ∈ s.turns, turn.goesOn) (he : s.exhaustion = .ended)
    {bytes rest : Bytes} {result : Except FrameError Envelope}
    (reading : Reading limits bytes result rest) (hu : s.unread = bytes) :
    (receive s limits).1 = result ∧ (receive s limits).2.unread = rest := by
  cases reading with
  | @accepted m _ sized fits packed =>
    obtain ⟨verdict, yields⟩ := receive_frame hs sized fits hu
    rw [Envelope.verdict, if_pos packed] at verdict
    exact ⟨verdict, List.append_cancel_left (yields.unread.symm.trans hu)⟩
  | @refused m _ sized fits padded =>
    obtain ⟨verdict, yields⟩ := receive_frame hs sized fits hu
    rw [Envelope.verdict, if_neg padded] at verdict
    exact ⟨verdict, List.append_cancel_left (yields.unread.symm.trans hu)⟩
  | classTooLarge exceeds => exact receive_tooLarge hs (Header.check_classTotal exceeds) hu
  | payloadTooLarge within exceeds => exact receive_tooLarge hs (Header.check_messageTotal within exceeds) hu
  | cutHeader short =>
    subst hu
    exact receive_cutHeader hs he short
  | cutBody fits short => exact receive_cutBody hs he fits short hu

/-- Repeated attempts give one result for each frame, and leave what follows the frames. -/
theorem receiveEach_frames {frames : List Envelope} {tail : Bytes}
    (hs : ∀ turn ∈ s.turns, turn.goesOn)
    (framed : ∀ m ∈ frames, m.Sized ∧ m.header.Fits limits)
    (hu : s.unread = frames.flatMap Envelope.wire ++ tail) :
    (receiveEach limits frames.length s).1 = frames.map Envelope.verdict ∧
      (receiveEach limits frames.length s).2.unread = tail := by
  induction frames generalizing s with
  | nil => exact ⟨rfl, hu⟩
  | cons m frames ih =>
    obtain ⟨sized, fits⟩ := framed m (List.mem_cons_self ..)
    rw [List.flatMap_cons, List.append_assoc] at hu
    obtain ⟨verdict, yields⟩ := receive_frame hs sized fits hu
    have left := List.append_cancel_left (yields.unread.symm.trans hu)
    obtain ⟨results, rest⟩ := ih (yields.goesOn hs)
      (fun n hn => framed n (List.mem_cons_of_mem _ hn)) left
    simp only [List.length_cons, receiveEach, List.map_cons]
    exact ⟨by rw [verdict, results], rest⟩

/-- What comes of an attempt to receive, and what it leaves, are as the bytes of the stream have it.
What is accepted is written back byte for byte as it was taken, and frames within the limits give one
result each. -/
theorem receive_exact (hs : ∀ turn ∈ s.turns, turn.goesOn) (he : s.exhaustion = .ended) :
    (∀ result rest, (receive s limits).1 = result ∧ (receive s limits).2.unread = rest ↔
      Reading limits s.unread result rest) ∧
    (∀ m, (receive s limits).1 = .ok m → ∀ k : Sink, k.Willing → (m.send k).1 = .ok () ∧
      ∃ taken, s.unread = taken ++ (receive s limits).2.unread ∧
        (m.send k).2.written = k.written ++ taken) ∧
    ∀ (frames : List Envelope) (tail : Bytes), (∀ m ∈ frames, m.Sized ∧ m.header.Fits limits) →
      s.unread = frames.flatMap Envelope.wire ++ tail →
        (receiveEach limits frames.length s).1 = frames.map Envelope.verdict ∧
          (receiveEach limits frames.length s).2.unread = tail := by
  have exact : ∀ result rest, (receive s limits).1 = result ∧ (receive s limits).2.unread = rest ↔
      Reading limits s.unread result rest := by
    intro result rest
    constructor
    · rintro ⟨rfl, rfl⟩
      obtain ⟨result, rest, reading⟩ := reading_total limits s.unread
      obtain ⟨rfl, rfl⟩ := receive_of_reading hs he reading rfl
      exact reading
    · exact fun reading => receive_of_reading hs he reading rfl
  refine ⟨exact, ?_, fun frames tail framed hu => receiveEach_frames hs framed hu⟩
  intro m hm k willing
  have reading := (exact _ _).mp ⟨hm, rfl⟩
  generalize (receive s limits).2.unread = rest, s.unread = bytes at reading
  cases reading with
  | accepted sized _ _ =>
    obtain ⟨ok, written, -⟩ := sized.send willing
    exact ⟨ok, m.wire, rfl, written⟩

end GoesOn

def classified (classifier : UInt32) (payload : Bytes) : Envelope :=
  let m := Envelope.plain 0 0 payload
  { m with header := { m.header with classifier } }

/-- A packed frame in byte orders that nobody knows, a padded one, and one without its last byte. -/
def mixedFrames : Source where
  unread := (classified 0xf9000004 [3]).wire ++ (classified 0x22010004 [1, 2]).wire ++
    (classified 0x22000004 [4, 5]).wire.dropLast
  turns := [.move 5, .fail (.bare .interrupted), .move 24, .move 1]
  gathers := false

def slowSink : Sink where
  turns := [.move 1, .fail (.numbered 11), .move 30]
  gathers := false

theorem slowSink_willing : slowSink.Willing := ⟨rfl, by decide⟩

theorem receive_exact_mixedFrames :
    (∀ turn ∈ mixedFrames.turns, turn.goesOn) ∧ mixedFrames.exhaustion = .ended ∧
      Reading ⟨0, 2⟩ mixedFrames.unread (.ok (classified 0xf9000004 [3]))
        (receive mixedFrames ⟨0, 2⟩).2.unread ∧
      (∃ taken, mixedFrames.unread = taken ++ (receive mixedFrames ⟨0, 2⟩).2.unread ∧
        ((classified 0xf9000004 [3]).send slowSink).2.written = taken) ∧
      (receiveEach ⟨0, 2⟩ 2 mixedFrames).1 =
        [.ok (classified 0xf9000004 [3]), .error (.unsupportedAlignment 1)] ∧
      (receiveEach ⟨0, 2⟩ 2 mixedFrames).2.unread =
        (classified 0x22000004 [4, 5]).wire.dropLast := by
  have hs : ∀ turn ∈ mixedFrames.turns, turn.goesOn := by decide
  have accepted : (receive mixedFrames ⟨0, 2⟩).1 = .ok (classified 0xf9000004 [3]) := by
    decide +kernel
  have framed : ∀ m ∈ [classified 0xf9000004 [3], classified 0x22010004 [1, 2]],
      m.Sized ∧ m.header.Fits ⟨0, 2⟩ := by
    intro m hm
    rcases List.mem_cons.mp hm with rfl | hm
    · exact ⟨⟨rfl, rfl⟩, by decide⟩
    · obtain rfl := List.mem_singleton.mp hm
      exact ⟨⟨rfl, rfl⟩, by decide⟩
  obtain ⟨exact, back, each⟩ := @receive_exact mixedFrames ⟨0, 2⟩ hs rfl
  obtain ⟨-, taken, split, written⟩ := back _ accepted slowSink slowSink_willing
  exact ⟨hs, rfl, (exact _ _).mp ⟨accepted, rfl⟩, ⟨taken, split, written⟩,
    each _ _ framed (by decide +kernel)⟩

end ModuleLink
