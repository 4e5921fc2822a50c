import ModuleLink.EnvelopeStreams
import ModuleLink.Proofs.HeaderBytes
import ModuleLink.Proofs.ReadLoops

/-! # What an attempt to receive takes off a stream

An attempt takes a whole envelope, which it accepts or refuses for its alignment, or the header of
one that is too large, or it is cut short. Which of these happens to an envelope that is all there
is up to its header alone. -/
namespace ModuleLink

theorem Header.encode_append_inj {h h' : Header} {a b : Bytes}
    (e : h.encode ++ a = h'.encode ++ b) : h = h' ∧ a = b := by
  obtain ⟨hh, hab⟩ := List.append_inj e (by rw [length_encode, length_encode])
  have hd := decode_encode h []
  rw [hh, decode_encode h' []] at hd
  exact ⟨hd.symm, hab⟩

theorem Header.check_eq_ok_iff (h : Header) (limits : Limits) :
    h.check limits = .ok () ↔
      h.classTotal.toNat ≤ limits.classData ∧ h.messageTotal.toNat ≤ limits.payload := by
  simp only [check, checkSegment]
  by_cases hc : limits.classData < h.classTotal.toNat
  · simp only [hc, if_true, bind, Except.bind, reduceCtorEq, false_iff]
    omega
  · by_cases hp : limits.payload < h.messageTotal.toNat
    · simp only [hc, hp, if_true, if_false, bind, Except.bind, reduceCtorEq, false_iff]
      omega
    · simp only [hc, hp, if_false, bind, Except.bind, true_iff]
      exact ⟨Nat.not_lt.mp hc, Nat.not_lt.mp hp⟩

theorem Header.check_error {h : Header} {limits : Limits} {e : FrameError}
    (he : h.check limits = .error e) :
    ∃ segment size limit, e = .segmentTooLarge segment size limit := by
  unfold check checkSegment at he
  by_cases hc : limits.classData < h.classTotal.toNat
  · simp only [hc, if_true, bind, Except.bind, Except.error.injEq] at he
    exact ⟨_, _, _, he.symm⟩
  · by_cases hp : limits.payload < h.messageTotal.toNat
    · simp only [hc, hp, if_true, if_false, bind, Except.bind, Except.error.injEq] at he
      exact ⟨_, _, _, he.symm⟩
    · simp [hc, hp, bind, Except.bind] at he

theorem Classifier.ensurePacked_of_packed {c : Classifier} (h : c.alignment = .packed) :
    c.ensurePacked = .ok () := by
  simp only [ensurePacked]
  rw [h]

theorem Classifier.ensurePacked_of_ne {c : Classifier} (h : c.alignment ≠ .packed) :
    c.ensurePacked = .error (.unsupportedAlignment c.alignment.code) := by
  unfold ensurePacked
  split
  · exact absurd ‹_› h
  · rfl

namespace Envelope

/-- The bytes that an envelope is on a stream. -/
def wire (m : Envelope) : Bytes := m.segments.flatten

theorem wire_eq (m : Envelope) : m.wire = m.header.encode ++ (m.classData ++ m.payload) := by
  simp only [wire, segments]
  by_cases hc : m.classData = [] <;> by_cases hp : m.payload = [] <;> simp [hc, hp]

/-- The totals in the header are the lengths of the segments. -/
structure Sized (m : Envelope) : Prop where
  classTotal : m.header.classTotal.toNat = m.classData.length
  messageTotal : m.header.messageTotal.toNat = m.payload.length

/-- The envelope whose body, divided as the header says, is these bytes. -/
def ofBody (h : Header) (body : Bytes) : Envelope :=
  ⟨h, body.take h.classTotal.toNat, body.drop h.classTotal.toNat⟩

theorem wire_ofBody (h : Header) (body : Bytes) : (ofBody h body).wire = h.encode ++ body := by
  simp only [wire_eq, ofBody, List.take_append_drop]

theorem sized_ofBody {h : Header} {body : Bytes}
    (length : body.length = h.classTotal.toNat + h.messageTotal.toNat) : (ofBody h body).Sized := by
  constructor
  · simp only [ofBody, List.length_take]
    omega
  · simp only [ofBody, List.length_drop]
    omega

/-- An envelope that a receiver with these limits takes. -/
structure Acceptable (limits : Limits) (m : Envelope) : Prop extends m.Sized where
  packed : m.classifier.alignment = .packed
  classData_le : m.classData.length ≤ limits.classData
  payload_le : m.payload.length ≤ limits.payload

instance (limits : Limits) (m : Envelope) : Decidable (m.Acceptable limits) :=
  decidable_of_iff
    ((m.header.classTotal.toNat = m.classData.length ∧
      m.header.messageTotal.toNat = m.payload.length) ∧ m.classifier.alignment = .packed ∧
        m.classData.length ≤ limits.classData ∧ m.payload.length ≤ limits.payload)
    ⟨fun ⟨⟨classTotal, messageTotal⟩, packed, classData, payload⟩ =>
      ⟨⟨classTotal, messageTotal⟩, packed, classData, payload⟩,
    fun h => ⟨⟨h.classTotal, h.messageTotal⟩, h.packed, h.classData_le, h.payload_le⟩⟩

def plain (intent messageRef : Int32) (payload : Bytes) : Envelope where
  header := {
    classTotal := 0
    messageTotal := .ofNat payload.length
    parentRef := noRef
    intent
    classifier := (Classifier.outgoing 0).pack
    dispatchRef := noRef
    messageRef }
  classData := []
  payload

theorem Sized.length_wire {m : Envelope} (h : m.Sized) : m.wire.length = m.wireLength := by
  simp only [wire_eq, List.length_append, Header.length_encode, wireLength, Header.wireLength,
    h.classTotal, h.messageTotal]
  omega

theorem Acceptable.check {m : Envelope} {limits : Limits} (h : m.Acceptable limits) :
    m.header.check limits = .ok () :=
  (Header.check_eq_ok_iff _ _).mpr
    ⟨h.classTotal ▸ h.classData_le, h.messageTotal ▸ h.payload_le⟩

/-- No envelope is the beginning of another one. -/
theorem Sized.wire_append_inj {m n : Envelope} (hm : m.Sized) (hn : n.Sized) {a b : Bytes}
    (e : m.wire ++ a = n.wire ++ b) : m = n ∧ a = b := by
  simp only [wire_eq, List.append_assoc] at e
  obtain ⟨hh, e⟩ := Header.encode_append_inj e
  obtain ⟨hc, e⟩ := List.append_inj e (by rw [← hm.classTotal, ← hn.classTotal, hh])
  obtain ⟨hp, hab⟩ := List.append_inj e (by rw [← hm.messageTotal, ← hn.messageTotal, hh])
  refine ⟨?_, hab⟩
  cases m
  cases n
  simp_all

theorem wire_ne_nil (m : Envelope) : m.wire ≠ [] := by
  rw [wire_eq]
  exact nofun

/-- Whole envelopes at the start of a stream of envelopes are the first ones of it. -/
theorem flatMap_wire_prefix {ms ns : List Envelope} {left : Bytes} (hm : ∀ m ∈ ms, m.Sized)
    (hn : ∀ n ∈ ns, n.Sized) (e : ms.flatMap wire ++ left = ns.flatMap wire) :
    ∃ rest, ns = ms ++ rest ∧ left = rest.flatMap wire := by
  induction ms generalizing ns with
  | nil => exact ⟨ns, rfl, e⟩
  | cons m ms ih =>
    rw [List.flatMap_cons, List.append_assoc] at e
    cases ns with
    | nil => exact absurd (List.append_eq_nil_iff.mp e).1 m.wire_ne_nil
    | cons n ns =>
      rw [List.flatMap_cons] at e
      have sized : m.Sized := hm m (List.mem_cons_self ..)
      obtain ⟨rfl, tails⟩ := sized.wire_append_inj (hn n (List.mem_cons_self ..)) e
      obtain ⟨rest, rfl, hl⟩ := ih (fun p hp => hm p (List.mem_cons_of_mem _ hp))
        (fun p hp => hn p (List.mem_cons_of_mem _ hp)) tails
      exact ⟨rest, rfl, hl⟩

end Envelope

/-- The bytes that one attempt to receive takes, and what comes of it. -/
inductive Attempt (limits : Limits) : Bytes → Except FrameError Envelope → Prop
  | accepted {m : Envelope} (hm : m.Acceptable limits) : Attempt limits m.wire (.ok m)
  | unpacked {m : Envelope} (hm : m.Sized) (hc : m.header.check limits = .ok ())
      (hp : m.classifier.alignment ≠ .packed) :
      Attempt limits m.wire (.error (.unsupportedAlignment m.classifier.alignment.code))
  | tooLarge {h : Header} {segment : Segment} {size limit : Nat}
      (hc : h.check limits = .error (.segmentTooLarge segment size limit)) :
      Attempt limits h.encode (.error (.segmentTooLarge segment size limit))
  | cutHeader {taken : Bytes} {e : TransportError} (hl : taken.length < Header.size)
      (he : e.stopsRead) : Attempt limits taken (.error (.transport e))
  | cutBody {h : Header} {body : Bytes} {e : TransportError} (hc : h.check limits = .ok ())
      (hl : body.length < h.classTotal.toNat + h.messageTotal.toNat) (he : e.stopsRead) :
      Attempt limits (h.encode ++ body) (.error (.transport e))

theorem receiveHeader_attempt {s t : Source} {result : Except FrameError Header}
    (h : receiveHeader s = (result, t)) :
    ∃ taken, s.Yields taken t ∧ (∀ header, result = .ok header → taken = header.encode) ∧
      ∀ e, result = .error e →
        taken.length < Header.size ∧ ∃ cause, e = .transport cause ∧ cause.stopsRead := by
  have fills := s.readExact_fills Header.size
  unfold receiveHeader at h
  generalize s.readExact Header.size = r at h fills
  obtain ⟨filled, u⟩ := r
  dsimp only at h fills
  refine ⟨filled.got, ?_⟩
  split at h
  · rename_i e he
    obtain ⟨rfl, rfl⟩ := Prod.mk.inj h.symm
    obtain ⟨hl, hs⟩ := fills.short e he
    exact ⟨fills.yields, nofun, fun _ h => ⟨hl, e, (Except.error.inj h).symm, hs⟩⟩
  · rename_i he
    obtain ⟨rfl, rfl⟩ := Prod.mk.inj h.symm
    have full := fills.full he
    have whole := Header.encode_decode (Nat.le_of_eq full.symm)
    rw [← full, List.drop_length, List.append_nil] at whole
    exact ⟨fills.yields, fun _ h => Except.ok.inj h ▸ whole.symm, nofun⟩

theorem receiveBody_attempt {s t : Source} {h : Header} {limits : Limits}
    {result : Except FrameError Envelope} (hc : h.check limits = .ok ())
    (hr : receiveBody s h = (result, t)) :
    ∃ taken, s.Yields taken t ∧ Attempt limits (h.encode ++ taken) result := by
  have fills := s.readScattered_fills h.classTotal.toNat h.messageTotal.toNat
  unfold receiveBody receiveSegments at hr
  generalize s.readScattered h.classTotal.toNat h.messageTotal.toNat = r at hr fills
  obtain ⟨filled, u⟩ := r
  dsimp only at hr fills
  split at hr
  · rename_i e he
    obtain ⟨rfl, rfl⟩ := Prod.mk.inj hr.symm
    obtain ⟨hl, hs⟩ := fills.short e he
    exact ⟨filled.got, fills.yields, .cutBody hc hl hs⟩
  · rename_i he
    obtain ⟨rfl, rfl⟩ := Prod.mk.inj hr.symm
    have full := fills.full he
    let m : Envelope := .ofBody h filled.got
    have sized : m.Sized := Envelope.sized_ofBody full
    refine ⟨filled.got, fills.yields, ?_⟩
    rw [← Envelope.wire_ofBody, List.splitAt_eq]
    by_cases hp : (Classifier.unpack h.classifier).alignment = .packed
    · rw [Classifier.ensurePacked_of_packed hp]
      obtain ⟨hcl, hpl⟩ := (Header.check_eq_ok_iff h limits).mp hc
      exact .accepted ⟨sized, hp, sized.classTotal ▸ hcl, sized.messageTotal ▸ hpl⟩
    · rw [Classifier.ensurePacked_of_ne hp]
      exact .unpacked (m := m) sized hc hp

theorem receive_attempt {s t : Source} {limits : Limits} {result : Except FrameError Envelope}
    (h : receive s limits = (result, t)) :
    ∃ taken, s.Yields taken t ∧ Attempt limits taken result := by
  unfold receive at h
  split at h
  · rename_i e u hu
    obtain ⟨rfl, rfl⟩ := Prod.mk.inj h.symm
    obtain ⟨taken, hy, -, hcut⟩ := receiveHeader_attempt hu
    obtain ⟨hl, cause, rfl, hs⟩ := hcut e rfl
    exact ⟨taken, hy, .cutHeader hl hs⟩
  · rename_i header u hu
    obtain ⟨taken, hy, hwhole, -⟩ := receiveHeader_attempt hu
    obtain rfl := hwhole header rfl
    split at h
    · rename_i e he
      obtain ⟨rfl, rfl⟩ := Prod.mk.inj h.symm
      obtain ⟨segment, size, limit, rfl⟩ := Header.check_error he
      exact ⟨header.encode, hy, .tooLarge he⟩
    · rename_i hc
      obtain ⟨body, hb, ha⟩ := receiveBody_attempt hc h
      exact ⟨header.encode ++ body, hy.trans hb, ha⟩

/-- On a stream that starts with an envelope to be accepted, an attempt gives just this envelope,
or is cut short. -/
theorem Attempt.of_wire {limits : Limits} {taken rest left : Bytes}
    {result : Except FrameError Envelope} {m : Envelope} (h : Attempt limits taken result)
    (hm : m.Acceptable limits) (e : taken ++ left = m.wire ++ rest) :
    (result = .ok m ∧ taken = m.wire ∧ left = rest) ∨
      taken.length < m.wire.length ∧ ∃ cause, result = .error (.transport cause) := by
  have sized := hm.toSized
  cases h with
  | accepted hn =>
    obtain ⟨rfl, rfl⟩ := hn.toSized.wire_append_inj sized e
    exact .inl ⟨rfl, rfl, rfl⟩
  | unpacked hn _ hp =>
    obtain ⟨rfl, -⟩ := hn.wire_append_inj sized e
    exact absurd hm.packed hp
  | tooLarge hc =>
    rw [Envelope.wire_eq, List.append_assoc] at e
    obtain ⟨rfl, -⟩ := Header.encode_append_inj e
    rw [hm.check] at hc
    cases hc
  | cutHeader hl _ =>
    refine .inr ⟨?_, _, rfl⟩
    rw [sized.length_wire, Envelope.wireLength, Header.wireLength]
    omega
  | cutBody _ hl _ =>
    refine .inr ⟨?_, _, rfl⟩
    rw [Envelope.wire_eq, List.append_assoc, List.append_assoc] at e
    obtain ⟨rfl, -⟩ := Header.encode_append_inj e
    rw [sized.length_wire, Envelope.wireLength, Header.wireLength, List.length_append,
      Header.length_encode]
    omega

theorem receiveHeader_goesOn {s : Source} {h : Header} {rest : Bytes}
    (hs : ∀ turn ∈ s.turns, turn.goesOn) (hu : s.unread = h.encode ++ rest) :
    ∃ t, receiveHeader s = (.ok h, t) ∧ s.Yields h.encode t := by
  have long : Header.size ≤ s.unread.length := by
    rw [hu, List.length_append, Header.length_encode]
    omega
  rcases hr : receiveHeader s with ⟨result, t⟩
  obtain ⟨taken, hy, hwhole, -⟩ := receiveHeader_attempt hr
  cases result with
  | ok header =>
    obtain rfl := hwhole header rfl
    obtain ⟨rfl, -⟩ := Header.encode_append_inj (hy.unread.symm.trans hu)
    exact ⟨t, rfl, hy⟩
  | error e =>
    have ok := Source.readExact_goesOn hs long
    simp only [receiveHeader, ok] at hr
    cases hr

theorem receiveBody_goesOn {s : Source} {limits : Limits} {m : Envelope} {rest : Bytes}
    (hs : ∀ turn ∈ s.turns, turn.goesOn) (hm : m.Acceptable limits)
    (hu : s.unread = m.classData ++ (m.payload ++ rest)) : (receiveBody s m.header).1 = .ok m := by
  have long : m.header.classTotal.toNat + m.header.messageTotal.toNat ≤ s.unread.length := by
    rw [hu, List.length_append, List.length_append, hm.classTotal, hm.messageTotal]
    omega
  rcases hr : receiveBody s m.header with ⟨result, t⟩
  obtain ⟨taken, hy, ha⟩ := receiveBody_attempt hm.check hr
  have start : m.header.encode ++ taken ++ t.unread = m.wire ++ rest := by
    rw [List.append_assoc, ← hy.unread, hu, Envelope.wire_eq]
    simp only [List.append_assoc]
  obtain ⟨rfl, -, -⟩ | ⟨-, cause, rfl⟩ := ha.of_wire hm start
  · rfl
  · have ok := Source.readScattered_goesOn hs long
    have packed := Classifier.ensurePacked_of_packed (c := .unpack m.header.classifier) hm.packed
    simp only [receiveBody, receiveSegments, ok, packed] at hr
    cases hr

/-- A stream that goes on gives the envelope that it starts with. -/
theorem receive_goesOn {s : Source} {limits : Limits} {m : Envelope} {rest : Bytes}
    (hs : ∀ turn ∈ s.turns, turn.goesOn) (hm : m.Acceptable limits)
    (hu : s.unread = m.wire ++ rest) : (receive s limits).1 = .ok m := by
  rw [Envelope.wire_eq, List.append_assoc, List.append_assoc] at hu
  obtain ⟨t, hh, hy⟩ := receiveHeader_goesOn hs hu
  have left := List.append_cancel_left (hy.unread.symm.trans hu)
  simp only [receive]
  simp only [hh, hm.check]
  exact receiveBody_goesOn (hy.goesOn hs) hm left

/-- It takes that envelope and no more. -/
theorem receive_takes {s : Source} {limits : Limits} {m : Envelope} {rest : Bytes}
    (hs : ∀ turn ∈ s.turns, turn.goesOn) (hm : m.Acceptable limits)
    (hu : s.unread = m.wire ++ rest) :
    ∃ t, receive s limits = (.ok m, t) ∧ s.Yields m.wire t ∧ t.unread = rest := by
  rcases hr : receive s limits with ⟨result, t⟩
  obtain rfl : result = .ok m := by rw [← receive_goesOn hs hm hu, hr]
  obtain ⟨taken, hy, attempt⟩ := receive_attempt hr
  cases attempt with
  | accepted => exact ⟨t, rfl, hy, List.append_cancel_left (hy.unread.symm.trans hu)⟩

end ModuleLink
