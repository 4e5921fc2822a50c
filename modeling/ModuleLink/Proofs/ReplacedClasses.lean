import ModuleLink.Proofs.DecodedSegments
import ModuleLink.Proofs.QueryReplies

/-! # Envelopes with another class segment

A replacement changes the class segment, its length in the header and the order that it is said to be
written in. The rest of the envelope stays, and decodes as before, from whatever machine it came; the
envelope travels like any other one; and only the last of several replacements is seen. -/
namespace ModuleLink

namespace Formatter

/-- A formatter knows beforehand how much it is going to write, or why it is not. -/
structure Announces (f : Formatter) : Prop where
  size : ∀ value wire, f.encode value = .ok wire → f.wireSize value = .ok wire.length
  refusal : ∀ value e, f.wireSize value = .error e → f.encode value = .error e

theorem raw_announces : raw.Announces where
  size _ _ h := congrArg (fun b => Except.ok (List.length b)) (Except.ok.inj h)
  refusal _ _ h := nomatch h

theorem int32Array_announces : int32Array.Announces where
  size value wire h := by
    obtain ⟨whole, rfl⟩ := int32Array_encode_eq_ok_iff.mp h
    show (checkWords wire >>= fun _ => pure wire.length) = _
    rw [checkWords, if_pos (Nat.mod_eq_zero_of_dvd whole)]
    rfl
  refusal value e h := by
    simp only [int32Array] at h ⊢
    cases whole : checkWords value with
    | ok =>
      rw [whole] at h
      cases h
    | error e' =>
      rw [whole] at h
      exact congrArg Except.error (Except.error.inj h)

theorem text_announces : text.Announces where
  size value wire h := by
    obtain ⟨-, -, rfl⟩ := text_encode_eq_ok_iff.mp h
    rw [List.length_append]
    rfl
  refusal _ _ h := nomatch h

theorem text_encode_continuation (rest : Bytes) :
    text.encode (0x80 :: rest) = .error .invalidText := by
  have broken : isText (0x80 :: rest) = false := by
    rw [isText, characters?, charactersAfter.eq_def]
    rfl
  simp only [text, broken, Bool.not_false, if_true]

theorem announces_of_builtIn {f : Formatter} (known : f ∈ builtIn) : f.Announces := by
  rcases mem_builtIn.mp known with rfl | rfl | rfl
  · exact raw_announces
  · exact int32Array_announces
  · exact text_announces

theorem faithful_of_builtIn {f : Formatter} (known : f ∈ builtIn) : f.Faithful := by
  rcases mem_builtIn.mp known with rfl | rfl | rfl
  · exact raw_faithful
  · exact int32Array_faithful
  · exact text_faithful

end Formatter

namespace Content

variable {f : Formatter} {value : Bytes} (segment : Segment)

/-- A formatter is asked for the size, and then for the bytes if they are not too many. -/
theorem encode_eq : encode segment ⟨f, value⟩ =
    match f.wireSize value with
    | .error e => .error (.format e)
    | .ok size =>
      if Formatter.maxLength < size then
        .error (.segmentTooLarge segment size Formatter.maxLength)
      else
        match f.encode value with
        | .error e => .error (.format e)
        | .ok wire =>
          if wire.length = size then .ok wire
          else .error (.format (.sizeMismatch f.name size wire.length)) := by
  simp only [encode, checkSegment]
  cases f.wireSize value with
  | error e => rfl
  | ok size =>
    dsimp only [Except.mapError, bind, Except.bind]
    by_cases large : Formatter.maxLength < size
    · simp only [large, if_true]
    · simp only [large, if_false]
      cases f.encode value <;> rfl

theorem encode_of_ok {wire : Bytes} (announced : f.wireSize value = .ok wire.length)
    (encoded : f.encode value = .ok wire) (short : wire.length ≤ Formatter.maxLength) :
    encode segment ⟨f, value⟩ = .ok wire := by
  simp only [encode_eq, announced, encoded, if_neg (Nat.not_lt.mpr short), if_true]

theorem encode_of_large {size : Nat} (announced : f.wireSize value = .ok size)
    (large : Formatter.maxLength < size) :
    encode segment ⟨f, value⟩ = .error (.segmentTooLarge segment size Formatter.maxLength) := by
  simp only [encode_eq, announced, if_pos large]

theorem encode_of_error (announces : f.Announces) {e : FormatError}
    (refused : f.encode value = .error e)
    (short : ∀ size, f.wireSize value = .ok size → size ≤ Formatter.maxLength) :
    encode segment ⟨f, value⟩ = .error (.format e) := by
  cases announced : f.wireSize value with
  | error e' =>
    obtain rfl := Except.error.inj ((announces.refusal value e' announced).symm.trans refused)
    simp only [encode_eq, announced]
  | ok size =>
    simp only [encode_eq, announced, refused, if_neg (Nat.not_lt.mpr (short size announced))]

end Content

namespace Envelope

def withClassData (m : Envelope) (classData : Bytes) : Envelope where
  header := { m.header with
    classTotal := .ofNat classData.length
    classifier := { m.classifier with classOrder := .host }.pack }
  classData
  payload := m.payload

/-- An envelope that differs from another one in its class segment only. -/
structure AgreesBesidesClass (n m : Envelope) : Prop where
  payload : n.payload = m.payload
  messageTotal : n.header.messageTotal = m.header.messageTotal
  classId : n.classId = m.classId
  dataOrder : n.classifier.dataOrder = m.classifier.dataOrder
  alignment : n.classifier.alignment = m.classifier.alignment
  intent : n.intent = m.intent
  parentRef : n.header.parentRef = m.header.parentRef
  dispatchRef : n.header.dispatchRef = m.header.dispatchRef
  messageRef : n.messageRef = m.messageRef

/-- Sent on a willing stream and received within the limits it arrives as it is, and what follows it
is left. -/
def Travels (n : Envelope) : Prop :=
  ∀ (limits : Limits) (s : Sink) (r : Source) (sent tail : Bytes),
    n.classData.length ≤ limits.classData → n.payload.length ≤ limits.payload → s.Willing →
    (∀ turn ∈ r.turns, turn.goesOn) → (n.send s).2.written = s.written ++ sent →
    r.unread = sent ++ tail →
    (n.send s).1 = .ok () ∧ (receive r limits).1 = .ok n ∧ (receive r limits).2.unread = tail

variable (m : Envelope) (wire : Bytes)

theorem replaceClass_eq (content : Content) :
    m.replaceClass content = (content.encode .classData).map m.withClassData := by
  show (content.encode .classData >>= fun classData => _) = _
  cases content.encode .classData <;> rfl

/-- Whatever codes the sender used, repacking its classifier changes the class order only. -/
theorem classifier_withClassData :
    (m.withClassData wire).classifier = { m.classifier with classOrder := .host } :=
  Classifier.unpack_pack (congrArg Alignment.ofCode (Alignment.code_ofCode _))

theorem withClassData_agrees : (m.withClassData wire).AgreesBesidesClass m := by
  have classifier := m.classifier_withClassData wire
  exact
    { payload := rfl
      messageTotal := rfl
      classId := by rw [classId, classifier]; rfl
      dataOrder := by rw [classifier]
      alignment := by rw [classifier]
      intent := rfl
      parentRef := rfl
      dispatchRef := rfl
      messageRef := rfl }

theorem withClassData_withClassData (later : Bytes) :
    (m.withClassData wire).withClassData later = m.withClassData later := by
  rw [withClassData, classifier_withClassData]
  rfl

variable {m wire}

theorem Sound.withClassData (h : m.Sound) (short : wire.length ≤ Formatter.maxLength) :
    (m.withClassData wire).Sound :=
  ⟨⟨toNat_ofNat_length short, h.messageTotal⟩, (m.withClassData_agrees wire).alignment.trans h.packed⟩

theorem Sound.travels {n : Envelope} (h : n.Sound) : n.Travels := by
  intro limits s r sent tail classData payload willing goesOn written unread
  obtain ⟨ok, all, -⟩ := h.toSized.send willing
  obtain rfl : sent = n.wire := List.append_cancel_left (written.symm.trans all)
  have fits : n.header.Fits limits := by
    rw [Header.Fits, h.classTotal, h.messageTotal]
    exact ⟨classData, payload⟩
  obtain ⟨verdict, yields⟩ := receive_frame goesOn h.toSized fits unread
  refine ⟨ok, verdict.trans h.verdict, ?_⟩
  exact List.append_cancel_left (yields.unread.symm.trans unread)

/-- Only the alignment and the data order of a classifier count for the payload. -/
theorem AgreesBesidesClass.decodePayload {n : Envelope} (h : n.AgreesBesidesClass m) (g : Formatter) :
    n.decodePayload g = m.decodePayload g := by
  simp only [Envelope.decodePayload, decodeSegment, Classifier.ensurePacked, h.payload, h.dataOrder,
    h.alignment]

theorem decodeClass_withClassData {f : Formatter} {value : Bytes} (h : m.Sound)
    (faithful : f.Faithful) (encoded : f.encode value = .ok wire) :
    (m.withClassData wire).decodeClass f = .ok (if wire = [] then none else some value) := by
  have classifier := m.classifier_withClassData wire
  by_cases empty : wire = []
  · rw [if_pos empty]
    show decodeSegment f wire _ _ = _
    rw [decodeSegment, if_pos empty]
    rfl
  · rw [if_neg empty]
    refine (decodeSegment_packed empty ((m.withClassData_agrees wire).alignment.trans h.packed)).trans ?_
    have back := faithful value wire encoded
    rw [classifier]
    by_cases flat : f.flat = true
    · rw [if_pos flat] at back
      rw [if_pos ⟨flat, rfl⟩, back]
    · rw [if_neg flat] at back
      rw [if_neg fun short => flat short.1, back]
      rfl

/-- A formatter of every module that writes a value no longer than a length field can say gives an
envelope with the value as its class segment, that otherwise agrees with the old one, decodes its
payload alike, travels, and is none the different for further replacements. A value that the formatter
refuses is refused with its error, and one that it announces as too large for that. -/
theorem replaceClass_exact {m : Envelope} (made : m.Made) {f : Formatter}
    (known : f ∈ Formatter.builtIn) (value : Bytes) :
    (∀ wire, f.encode value = .ok wire → wire.length ≤ Formatter.maxLength →
      ∃ n, m.replaceClass ⟨f, value⟩ = .ok n ∧ n.AgreesBesidesClass m ∧ n.classData = wire ∧
        n.header.classTotal.toNat = wire.length ∧ n.classifier.classOrder = .host ∧
        (∀ g, n.decodePayload g = m.decodePayload g) ∧
        n.decodeClass f = .ok (if wire = [] then none else some value) ∧ n.Travels ∧
        ∀ content, n.replaceClass content = m.replaceClass content) ∧
    (∀ e, f.encode value = .error e →
      (∀ size, f.wireSize value = .ok size → size ≤ Formatter.maxLength) →
      m.replaceClass ⟨f, value⟩ = .error (.format e)) ∧
    ∀ size, f.wireSize value = .ok size → Formatter.maxLength < size →
      m.replaceClass ⟨f, value⟩ =
        .error (.segmentTooLarge .classData size Formatter.maxLength) := by
  have announces := Formatter.announces_of_builtIn known
  have sound := made.sound
  refine ⟨fun wire encoded short => ?_, fun e refused short => ?_, fun size announced large => ?_⟩
  · have agrees := m.withClassData_agrees wire
    refine ⟨m.withClassData wire, ?_, agrees, rfl, toNat_ofNat_length short, ?_, agrees.decodePayload,
      decodeClass_withClassData sound (Formatter.faithful_of_builtIn known) encoded,
      (sound.withClassData short).travels, fun content => ?_⟩
    · rw [replaceClass_eq,
        Content.encode_of_ok .classData (announces.size value wire encoded) encoded short]
      rfl
    · rw [classifier_withClassData]
    · rw [replaceClass_eq, replaceClass_eq, funext (m.withClassData_withClassData wire)]
  · rw [replaceClass_eq, Content.encode_of_error .classData announces refused short]
    rfl
  · rw [replaceClass_eq, Content.encode_of_large .classData announced large]
    rfl

/-- An envelope was received whose byte orders nobody knows. Two letters become its class segment, and
nothing at all after them; what is no text does not. -/
theorem replaceClass_exact_lettered :
    let m := classified 0xf9000004 [3]
    m.Made ∧ .text ∈ Formatter.builtIn ∧
      m.replaceClass ⟨.text, [255]⟩ = .error (.format .invalidText) ∧
      ∃ n, m.replaceClass ⟨.text, [97, 98]⟩ = .ok n ∧ n.header.classifier = 0x20000004 ∧
        (∀ g, n.decodePayload g = m.decodePayload g) ∧
        n.decodeClass .text = .ok (some [97, 98]) ∧ n.Travels ∧
        n.replaceClass ⟨.raw, []⟩ = m.replaceClass ⟨.raw, []⟩ := by
  intro m
  have taken : (receive mixedFrames ⟨0, 2⟩).1 = .ok m := by decide +kernel
  have made : m.Made := .received (Prod.ext taken rfl)
  have known : Formatter.text ∈ Formatter.builtIn := Formatter.mem_builtIn.mpr (.inr (.inr rfl))
  obtain ⟨replaced, -, -⟩ := replaceClass_exact made known [97, 98]
  obtain ⟨-, refused, -⟩ := replaceClass_exact made known [255]
  obtain ⟨n, hn, -, -, -, -, payload, classData, travels, again⟩ :=
    replaced [2, 0, 0, 0, 97, 98] (by decide +kernel) (by decide)
  have invalid := refused .invalidText (by decide +kernel) (fun _ h => Except.ok.inj h ▸ by decide)
  have word : (m.replaceClass ⟨.text, [97, 98]⟩).map (·.header.classifier) = .ok 0x20000004 := by
    decide +kernel
  rw [hn] at word
  exact ⟨made, known, invalid, n, hn, Except.ok.inj word, payload, classData, travels, again _⟩

/-- The size is checked before the value is: what is no text, but longer than any text may be, is
refused for its size. -/
theorem replaceClass_hides_invalidText :
    let m : Envelope := ⟨⟨0, 1, -1, -1, 0x22000004, -1, -1⟩, [], [3]⟩
    let value : Bytes := List.replicate 4294967292 0x80
    m.Made ∧ Formatter.text ∈ Formatter.builtIn ∧
      Formatter.text.encode value = .error .invalidText ∧
      m.replaceClass ⟨.text, value⟩ =
        .error (.segmentTooLarge .classData 4294967296 4294967295) ∧
      m.replaceClass ⟨.text, value⟩ ≠ .error (.format .invalidText) := by
  intro m value
  have built : ({ classId := 4, payload := some ⟨.raw, [3]⟩ } : Draft).build = .ok m := by
    decide +kernel
  have invalid : Formatter.text.encode value = .error .invalidText := by
    show Formatter.text.encode (List.replicate (4294967291 + 1) 0x80) = _
    rw [List.replicate_succ]
    exact Formatter.text_encode_continuation _
  have announced : Formatter.text.wireSize value = .ok 4294967296 := by
    show Except.ok (4 + (List.replicate 4294967292 _).length) = _
    rw [List.length_replicate]
  have refused : m.replaceClass ⟨.text, value⟩ =
      .error (.segmentTooLarge .classData 4294967296 4294967295) := by
    rw [replaceClass_eq, Content.encode_of_large .classData announced (by decide)]
    rfl
  refine ⟨.built built, Formatter.mem_builtIn.mpr (.inr (.inr rfl)), invalid, refused, ?_⟩
  rw [refused]
  exact nofun

end Envelope

end ModuleLink
