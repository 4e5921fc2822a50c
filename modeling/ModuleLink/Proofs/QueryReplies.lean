import ModuleLink.Proofs.ForeignLayouts
import ModuleLink.Proofs.HandleGenerations
import ModuleLink.Proofs.SendSteps

/-! # Answers to queries

A query is adopted as a reference that keeps its message reference and the connection it came from,
and is answered through it. The answer carries the data in the response format of the message, and
decoding it in this format gives the data back. -/
namespace ModuleLink

namespace Formatter

/-- What was encoded is decoded again, or is the value already. -/
def Faithful (f : Formatter) : Prop :=
  ∀ value wire, f.encode value = .ok wire →
    if f.flat then wire = value else f.decode wire .host = .ok value

theorem int32Array_encode_eq_ok_iff {value wire : Bytes} :
    int32Array.encode value = .ok wire ↔ 4 ∣ value.length ∧ wire = value := by
  rw [Nat.dvd_iff_mod_eq_zero]
  show (checkWords value >>= fun _ => pure value) = _ ↔ _
  by_cases whole : value.length % 4 = 0
  · rw [checkWords, if_pos whole]
    exact ⟨fun h => ⟨whole, (Except.ok.inj h).symm⟩, fun h => congrArg Except.ok h.2.symm⟩
  · rw [checkWords, if_neg whole]
    exact iff_of_false (by rintro ⟨⟩) fun h => whole h.1

theorem text_encode_eq_ok_iff {value wire : Bytes} :
    text.encode value = .ok wire ↔ isText value = true ∧ value.length < UInt32.size ∧
      wire = littleEndian (.ofNat value.length) ++ value := by
  simp only [text]
  by_cases valid : isText value = true
  · by_cases short : value.length < UInt32.size
    · have fits : ¬ maxLength < value.length := by simp only [UInt32.size, maxLength] at *; omega
      simp [valid, short, fits, eq_comm]
    · have large : maxLength < value.length := by simp only [UInt32.size, maxLength] at *; omega
      simp [valid, short, large]
  · simp [valid]

theorem raw_faithful : raw.Faithful := fun _ _ h => (Except.ok.inj h).symm

theorem int32Array_faithful : int32Array.Faithful := fun _ _ h => (int32Array_encode_eq_ok_iff.mp h).2

theorem text_faithful : text.Faithful := by
  intro value wire h
  obtain ⟨valid, short, rfl⟩ := text_encode_eq_ok_iff.mp h
  have back : text.decode (ByteOrder.host.measured value) .host = .ok value :=
    text_decode_measured (by decide) (Nat.le_of_lt_succ short) valid
  exact back

end Formatter

theorem Content.encode_ok {c : Content} {segment : Segment} {wire : Bytes}
    (h : c.encode segment = .ok wire) : c.formatter.encode c.value = .ok wire := by
  obtain ⟨size, -, h⟩ := ok_of_bind h
  obtain ⟨_, -, h⟩ := ok_of_bind h
  obtain ⟨bytes, encoded, h⟩ := ok_of_bind h
  split at h
  · obtain rfl := Except.ok.inj h
    cases he : c.formatter.encode c.value with
    | error e =>
      rw [he] at encoded
      cases encoded
    | ok w =>
      rw [he] at encoded
      exact congrArg Except.ok (Except.ok.inj encoded)
  · cases h

namespace Envelope

theorem Sized.hasPayload_iff {m : Envelope} (h : m.Sized) : m.hasPayload = true ↔ m.payload ≠ [] := by
  have total := h.messageTotal
  simp only [hasPayload, decide_eq_true_eq, UInt32.lt_iff_toNat_lt]
  rw [total, ← List.length_pos_iff]
  rfl

/-- The payload of an envelope that was built is the encoded value, and is decoded to it. -/
theorem decodePayload_of_build {d : Draft} {m : Envelope} {f : Formatter} {value : Bytes}
    (faithful : f.Faithful) (hp : d.payload = some ⟨f, value⟩) (built : d.build = .ok m) :
    f.encode value = .ok m.payload ∧
      (m.payload ≠ [] → m.decodePayload f = .ok (some value)) := by
  obtain ⟨classData, -, built⟩ := ok_of_bind built
  obtain ⟨payload, encoded, built⟩ := ok_of_bind built
  rw [hp] at encoded
  have encoded := Content.encode_ok encoded
  obtain rfl := Except.ok.inj built
  refine ⟨encoded, fun some => ?_⟩
  have order : (Classifier.unpack (Classifier.outgoing d.classId).pack).dataOrder = .host :=
    Classifier.dataOrder_unpack_pack _
  have packed : (Classifier.unpack (Classifier.outgoing d.classId).pack).alignment = .packed :=
    Classifier.alignment_unpack_pack _
  show decodeSegment f payload (Classifier.unpack (Classifier.outgoing d.classId).pack).dataOrder
    (Classifier.unpack (Classifier.outgoing d.classId).pack) = _
  generalize Classifier.unpack (Classifier.outgoing d.classId).pack = layout at order packed ⊢
  have back := faithful value payload encoded
  rw [decodeSegment, if_neg some, Classifier.ensurePacked_of_packed packed, order]
  by_cases flat : f.flat = true
  · rw [if_pos flat] at back
    obtain rfl := back
    simp only [flat, and_self, if_true]
    rfl
  · rw [if_neg flat] at back
    simp only [flat, Bool.false_eq_true, false_and, if_false, back]
    rfl

end Envelope

namespace Message

def replyFormat (m : Message) : Formatter := m.responseFormat.getD .raw

/-- Answers travel directly, in one of the formats that modules come with. -/
structure AnswersDirectly (m : Message) : Prop where
  direct : m.direct = true
  format : m.responseFormat = none ∨ m.responseFormat = some .raw ∨
    m.responseFormat = some .int32Array ∨ m.responseFormat = some .text

theorem AnswersDirectly.faithful {m : Message} (h : m.AnswersDirectly) : m.replyFormat.Faithful := by
  rw [replyFormat]
  rcases h.format with e | e | e | e
  · rw [e]
    exact Formatter.raw_faithful
  · rw [e]
    exact Formatter.raw_faithful
  · rw [e]
    exact Formatter.int32Array_faithful
  · rw [e]
    exact Formatter.text_faithful

end Message

namespace Act

theorem run_pure {α : Type} (v : α) (x : ModuleContext) : (pure v : Act α).run x = (.ok v, x) := rfl

theorem run_bind_of_ok {α β : Type} {a : Act α} {f : α → Act β} {x y : ModuleContext} {v : α}
    (h : a.run x = (.ok v, y)) : (a >>= f).run x = (f v).run y := by
  rw [run_bind, h]

end Act

namespace ModuleContext

def replyDraft (x : ModuleContext) (message : Message) (messageRef : Int32) (data : Bytes) :
    Draft where
  classId := MessageClass.reply.id
  parentRef := x.parentRef
  intent := queryReplyIntent
  dispatchRef := messageRef
  messageRef
  payload := some ⟨message.replyFormat, data⟩

def settling (h : Handle) (r : Reference) : TableCall Reference :=
  match r.response with
  | .detached => .release h
  | _ => .modify h fun r => { r with response := .responded }

variable {x : ModuleContext} {h : Handle} {r : Reference} {message : Message} {data : Bytes}

theorem run_settleReference (got : x.references.get h = .ok r) :
    (settleReference h r).run x =
      (.ok (), { x with references := (x.references.call (settling h r)).2 }) := by
  have now : (get : Act ModuleContext).run x = (.ok x, x) := rfl
  have released : ∃ t, x.references.release h = .ok (r, t) :=
    ⟨_, by simp only [ReferenceTable.release, got]; rfl⟩
  have modified : ∀ edit, ∃ t, x.references.modify h edit = .ok t :=
    fun edit => ⟨_, by simp only [ReferenceTable.modify, got]; rfl⟩
  have marks : (editReference h fun r => { r with response := .responded }).run x =
      (.ok (), { x with references :=
        (x.references.call (.modify h fun r => { r with response := .responded })).2 }) := by
    obtain ⟨t, ht⟩ := modified fun r => { r with response := .responded }
    simp only [editReference, ReferenceTable.call, ht]
    rw [Act.run_bind_of_ok now, ht]
    rfl
  simp only [settleReference, settling]
  cases r.response with
  | detached =>
    obtain ⟨t, ht⟩ := released
    simp only [freeReference, ReferenceTable.call, ht]
    rw [Act.run_bind_of_ok now, ht]
    rfl
  | pending => exact marks
  | responded => exact marks

/-- A reply through a reference that is bound to its message goes where the query came from. -/
theorem run_reply {id : ConnectionId} {c d : Connection} {m : Envelope}
    (got : x.references.get h = .ok r) (bound : r.message = some message)
    (direct : message.direct = true) (origin : r.replyTo = some id) (tracked : id ∈ x.table)
    (built : (x.replyDraft message r.id data).build = .ok m) (hc : x.connection? id = some c)
    (sent : c.send m = (.ok (), d)) :
    (reply h data).run x =
      (.ok (), { x.setConnection id d with
        references := (x.references.call (settling h r)).2 }) := by
  have now : (get : Act ModuleContext).run x = (.ok x, x) := rfl
  have found : (reference h).run x = (.ok r, x) := by rw [run_reference, got]
  have resolved : (resolveMessage h).run x = (.ok message, x) := by
    simp only [resolveMessage]
    rw [Act.run_bind_of_ok found, bound]
    rfl
  have labelled : (responseLabels { messageClass := .reply, reference := some h, data := some data }
      (some (h, r))).run x =
      (.ok { intent := queryReplyIntent, messageRef := r.id, format := message.responseFormat }, x) := by
    simp only [responseLabels]
    rw [Act.run_bind_of_ok resolved]
    simp only [direct]
    rfl
  have back : (replyConnection r.replyTo).run x = (.ok id, x) := by
    simp only [replyConnection]
    rw [Act.run_bind_of_ok now]
    simp only [origin, Option.filter_some, tracked, decide_true, if_true]
    rfl
  have encoded : (ModuleContext.build (x.replyDraft message r.id data)).run x = (.ok m, x) := by
    rw [ModuleContext.build, built]
    rfl
  have written : (sendOn id m).run x = (.ok (), x.setConnection id d) := by
    rw [run_sendOn_of_some hc, sent]
    rfl
  have settled := run_settleReference (x := x.setConnection id d) got
  simp only [reply, sendResponse]
  rw [Act.run_bind_of_ok found, Act.run_bind_of_ok (Act.run_pure _ _),
    Act.run_bind_of_ok labelled, Act.run_bind_of_ok now, Act.run_bind_of_ok (Act.run_pure _ _),
    Act.run_bind_of_ok now]
  refine (Act.run_bind_of_ok encoded).trans ?_
  refine (Act.run_bind_of_ok back).trans ?_
  exact (Act.run_bind_of_ok written).trans settled

end ModuleContext

end ModuleLink
