import ModuleLink.Proofs.ExactReception

/-! # Envelopes that are sent and received again

Whatever a module builds, receives or derives from these is packed, and its header announces its
segments rightly. So a willing stream takes a list of such envelopes whole, and however the bytes are
handed out again they give the same envelopes. -/
namespace ModuleLink

/-- What ends well has ended well in each of its steps. -/
theorem ok_of_bind {ε α β : Type} {a : Except ε α} {f : α → Except ε β} {b : β}
    (h : a >>= f = .ok b) : ∃ v, a = .ok v ∧ f v = .ok b := by
  cases a with
  | error e => cases h
  | ok v => exact ⟨v, rfl, h⟩

theorem ok_of_throw {ε α : Type} {c : Prop} [Decidable c] {e : ε} {f : PUnit → Except ε α} {v : α}
    (h : (if c then throw e >>= f else f ⟨⟩) = .ok v) : ¬ c ∧ f ⟨⟩ = .ok v := by
  by_cases refused : c
  · rw [if_pos refused] at h
    cases h
  · rw [if_neg refused] at h
    exact ⟨refused, h⟩

theorem mem_toOption_iff {ε α : Type} {e : Except ε α} {v : α} : v ∈ e.toOption ↔ e = .ok v := by
  cases e <;> simp [Except.toOption]

theorem checkSegment_ok {segment : Segment} {size limit : Nat}
    (h : checkSegment segment size limit = .ok ()) : size ≤ limit := by
  unfold checkSegment at h
  split at h
  · cases h
  · rename_i within
    exact Nat.not_lt.mp within

theorem Content.length_encode_le {c : Content} {segment : Segment} {wire : Bytes}
    (h : c.encode segment = .ok wire) : wire.length ≤ Formatter.maxLength := by
  obtain ⟨size, -, h⟩ := ok_of_bind h
  obtain ⟨⟨⟩, fits, h⟩ := ok_of_bind h
  obtain ⟨bytes, -, h⟩ := ok_of_bind h
  split at h
  · rename_i same
    obtain rfl := Except.ok.inj h
    exact same ▸ checkSegment_ok fits
  · cases h

theorem length_encodeSegment_le {content : Option Content} {segment : Segment} {wire : Bytes}
    (h : encodeSegment segment content = .ok wire) : wire.length ≤ Formatter.maxLength := by
  cases content with
  | none =>
    obtain rfl := Except.ok.inj h
    exact Nat.zero_le _
  | some c => exact c.length_encode_le h

theorem toNat_ofNat_length {wire : Bytes} (h : wire.length ≤ Formatter.maxLength) :
    (UInt32.ofNat wire.length).toNat = wire.length := by
  simp only [Formatter.maxLength] at h
  exact UInt32.toNat_ofNat_of_lt' (by simp only [UInt32.size]; omega)

theorem Draft.build_intent {d : Draft} {m : Envelope} (h : d.build = .ok m) :
    m.intent = d.intent := by
  obtain ⟨classData, -, h⟩ := ok_of_bind h
  obtain ⟨payload, -, h⟩ := ok_of_bind h
  obtain rfl := Except.ok.inj h
  rfl

theorem Draft.build_messageRef {d : Draft} {m : Envelope} (h : d.build = .ok m) :
    m.messageRef = d.messageRef := by
  obtain ⟨classData, -, h⟩ := ok_of_bind h
  obtain ⟨payload, -, h⟩ := ok_of_bind h
  obtain rfl := Except.ok.inj h
  rfl

namespace Envelope

/-- What a receiver takes if its limits allow: the header is right about the segments, and the data
is packed. -/
structure Sound (m : Envelope) : Prop extends m.Sized where
  packed : m.classifier.alignment = .packed

theorem Sound.verdict {m : Envelope} (h : m.Sound) : m.verdict = .ok m := by
  rw [← m.verdict_eq, Classifier.ensurePacked_of_packed h.packed]
  rfl

theorem Sound.of_build {d : Draft} {m : Envelope} (h : d.build = .ok m) : m.Sound := by
  obtain ⟨classData, hc, h⟩ := ok_of_bind h
  obtain ⟨payload, hp, h⟩ := ok_of_bind h
  obtain rfl := Except.ok.inj h
  exact ⟨⟨toNat_ofNat_length (length_encodeSegment_le hc),
    toNat_ofNat_length (length_encodeSegment_le hp)⟩, Classifier.alignment_unpack_pack _⟩

theorem Sound.of_receive {s t : Source} {limits : Limits} {m : Envelope}
    (h : receive s limits = (.ok m, t)) : m.Sound := by
  obtain ⟨taken, -, attempt⟩ := receive_attempt h
  cases attempt with
  | accepted hm => exact ⟨hm.toSized, hm.packed⟩

theorem Sound.withIntent {m : Envelope} (h : m.Sound) (intent : Int32) : (m.withIntent intent).Sound :=
  ⟨⟨h.classTotal, h.messageTotal⟩, h.packed⟩

theorem Sound.replaceClass {m n : Envelope} (h : m.Sound) {content : Content}
    (hn : m.replaceClass content = .ok n) : n.Sound := by
  obtain ⟨classData, hc, hn⟩ := ok_of_bind hn
  obtain rfl := Except.ok.inj hn
  refine ⟨⟨toNat_ofNat_length (content.length_encode_le hc), h.messageTotal⟩, ?_⟩
  refine (Classifier.alignment_unpack_pack _).trans ?_
  rw [Alignment.ofCode_eq_packed_iff]
  exact congrArg Alignment.code h.packed

/-- How a module comes by an envelope. -/
inductive Made : Envelope → Prop
  | built {d : Draft} {m : Envelope} (h : d.build = .ok m) : Made m
  | received {s t : Source} {limits : Limits} {m : Envelope} (h : receive s limits = (.ok m, t)) :
      Made m
  | withIntent {m : Envelope} (h : Made m) (intent : Int32) : Made (m.withIntent intent)
  | withClass {m n : Envelope} (h : Made m) {content : Content}
      (hn : m.replaceClass content = .ok n) : Made n

theorem Made.sound {m : Envelope} (h : m.Made) : m.Sound := by
  induction h with
  | built h => exact .of_build h
  | received h => exact .of_receive h
  | withIntent _ intent ih => exact ih.withIntent intent
  | withClass _ hn ih => exact ih.replaceClass hn

end Envelope

def sendEach : List Envelope → Sink → List (Except FrameError Unit) × Sink
  | [], s => ([], s)
  | m :: ms, s =>
    let (result, t) := m.send s
    let (results, u) := sendEach ms t
    (result :: results, u)

theorem sendEach_willing {ms : List Envelope} {s : Sink} (sized : ∀ m ∈ ms, m.Sized)
    (hs : s.Willing) :
    (sendEach ms s).1 = ms.map (fun _ => .ok ()) ∧
      (sendEach ms s).2.written = s.written ++ ms.flatMap Envelope.wire := by
  induction ms generalizing s with
  | nil => exact ⟨rfl, (List.append_nil _).symm⟩
  | cons m ms ih =>
    obtain ⟨ok, written, willing⟩ := (sized m (List.mem_cons_self ..)).send hs
    obtain ⟨results, rest⟩ := ih (fun n hn => sized n (List.mem_cons_of_mem _ hn)) willing
    simp only [sendEach, List.map_cons, List.flatMap_cons]
    refine ⟨by rw [ok, results], ?_⟩
    rw [rest, written, List.append_assoc]

/-- What was sent on a willing stream is received again, and what follows it is left. -/
theorem receiveEach_sendEach {ms : List Envelope} {limits : Limits} {s : Sink} {r : Source}
    {sent tail : Bytes} (made : ∀ m ∈ ms, m.Made)
    (within : ∀ m ∈ ms, m.classData.length ≤ limits.classData ∧ m.payload.length ≤ limits.payload)
    (willing : s.Willing) (goesOn : ∀ turn ∈ r.turns, turn.goesOn)
    (hs : (sendEach ms s).2.written = s.written ++ sent) (hr : r.unread = sent ++ tail) :
    (sendEach ms s).1 = ms.map (fun _ => .ok ()) ∧
      (receiveEach limits ms.length r).1 = ms.map .ok ∧
      (receiveEach limits ms.length r).2.unread = tail := by
  have sound : ∀ m ∈ ms, m.Sound := fun m hm => (made m hm).sound
  have framed : ∀ m ∈ ms, m.Sized ∧ m.header.Fits limits := by
    intro m hm
    have sized := (sound m hm).toSized
    refine ⟨sized, ?_⟩
    rw [Header.Fits, sized.classTotal, sized.messageTotal]
    exact within m hm
  obtain ⟨results, written⟩ := sendEach_willing (fun m hm => (framed m hm).1) willing
  obtain rfl : sent = ms.flatMap Envelope.wire := List.append_cancel_left (hs.symm.trans written)
  obtain ⟨received, left⟩ := receiveEach_frames goesOn framed hr
  refine ⟨results, ?_, left⟩
  rw [received]
  exact List.map_congr_left fun m hm => (sound m hm).verdict

def lettered : Draft where
  classId := 42
  classData := some ⟨.text, [97, 98]⟩
  payload := some ⟨.raw, [1, 2, 3]⟩

def letteredEnvelope : Envelope where
  header := ⟨6, 3, -1, -1, 0x2200002a, -1, -1⟩
  classData := [2, 0, 0, 0, 97, 98]
  payload := [1, 2, 3]

theorem Envelope.lettered_made : letteredEnvelope.Made := .built (d := lettered) (by decide +kernel)

def strippedEnvelope : Envelope :=
  { letteredEnvelope with header := ⟨0, 3, -1, 9, 0x2200002a, -1, -1⟩, classData := [] }

/-- An envelope that was built, the same with an intent and then without a class segment, and one
that was received. -/
def journey : List Envelope :=
  [letteredEnvelope, letteredEnvelope.withIntent 9, strippedEnvelope, classified 0xf9000004 [3]]

def arrivals : Source :=
  { mixedFrames with unread := (sendEach journey slowSink).2.written ++ [7] }

theorem receiveEach_sendEach_journey :
    (∀ m ∈ journey, m.Made) ∧ (receiveEach ⟨6, 3⟩ 4 arrivals).1 = journey.map .ok ∧
      (receiveEach ⟨6, 3⟩ 4 arrivals).2.unread = [7] := by
  have built : letteredEnvelope.Made := .built (d := lettered) (by decide +kernel)
  have stripped : (letteredEnvelope.withIntent 9).replaceClass ⟨.raw, []⟩ = .ok strippedEnvelope := by
    decide +kernel
  have taken : (receive mixedFrames ⟨0, 2⟩).1 = .ok (classified 0xf9000004 [3]) := by decide +kernel
  have made : ∀ m ∈ journey, m.Made := by
    intro m hm
    simp only [journey, List.mem_cons, List.not_mem_nil, or_false] at hm
    rcases hm with rfl | rfl | rfl | rfl
    · exact built
    · exact built.withIntent 9
    · exact (built.withIntent 9).withClass stripped
    · exact .received (Prod.ext taken rfl)
  have goesOn : ∀ turn ∈ arrivals.turns, turn.goesOn := by decide
  exact ⟨made, (@receiveEach_sendEach journey ⟨6, 3⟩ slowSink arrivals _ _ made (by decide)
    slowSink_willing goesOn (List.nil_append _).symm rfl).2⟩

end ModuleLink
