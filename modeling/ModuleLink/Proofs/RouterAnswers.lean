import ModuleLink.ReferenceQueries
import ModuleLink.Proofs.ExactCodecs
import ModuleLink.Proofs.ReplyMatching
import ModuleLink.Proofs.ResponseLabels

/-! # What the router answers about an exchange

A module asks its router for the status of an exchange and for the data that was sent under it. It
sends one query with the id of the exchange, keeps whatever comes before the answer, and has the same
status and the same data in whichever byte order the router writes. -/
namespace ModuleLink

/-- A connection that takes what is sent on it, and from which these bytes can be read. -/
structure Connection.Ready (c : Connection) (bytes : Bytes) : Prop where
  isOpen : c.isOpen = true
  free : c.readHeld = false
  willing : c.outgoing.Willing
  goesOn : ∀ turn ∈ c.incoming.turns, turn.goesOn
  unread : c.incoming.unread = bytes

/-- A query about an exchange travels through the router, with the id of the exchange as it is. -/
structure Message.NamesExchange (m : Message) : Prop where
  routed : m.deliversDirectly = false
  format : m.messageFormat = none ∨ m.messageFormat = some .int32Array

structure Envelope.AsksAbout (m : Envelope) (id intent messageRef : Int32) : Prop where
  intent : m.intent = intent
  messageRef : m.messageRef = messageRef
  payload : m.decodePayload .int32Array = .ok (some (ByteOrder.host.layOut [id]))

namespace Envelope

/-- What a module builds is in the host's layout. -/
theorem decodePayload_of_outgoing {m : Envelope} {classId : UInt16}
    (layout : m.classifier = .outgoing classId) (filled : m.payload ≠ []) :
    m.decodePayload .int32Array = .ok (some m.payload) := by
  rw [decodePayload, layout, decodeSegment_packed filled rfl, if_pos ⟨rfl, rfl⟩]

/-- A text is decoded to its bytes, whichever order its length comes in. -/
theorem decodePayload_text {m : Envelope} {order : ByteOrder} {text : String}
    (packed : m.classifier.alignment = .packed) (written : m.classifier.dataOrder = order)
    (payload : order.Opens m.payload (textBytes text)) :
    m.decodePayload .text = .ok (some (textBytes text)) := by
  have read := Formatter.text_decode_eq_ok_iff.mpr ⟨payload, isText_textBytes text⟩
  rw [decodePayload, written, decodeSegment_packed payload.ne_nil packed,
    if_neg (fun flat => absurd flat.1 (by decide)), read]
  rfl

end Envelope

theorem Draft.exists_build {d : Draft} {classData payload : Bytes}
    (classEncoded : encodeSegment .classData d.classData = .ok classData)
    (payloadEncoded : encodeSegment .payload d.payload = .ok payload) :
    ∃ m, d.build = .ok m := by
  simp only [build, classEncoded, payloadEncoded]
  exact ⟨_, rfl⟩

namespace ModuleContext

variable {x y : ModuleContext} {h : Handle} {r : Reference} {timeout : Option Span}
  {router : ConnectionId} {message : Message} {name : String} {id : Int32}
  {before : List Envelope} {answer : Envelope} {after : Bytes}

/-- The router takes the next query of a module and answers it. What comes before the answer is for
somebody else, and nothing that was kept from before is a reply to this query. -/
structure Answers (x : ModuleContext) (timeout : Option Span) (router : ConnectionId)
    (before : List Envelope) (answer : Envelope) (after : Bytes) : Prop where
  routed : x.router = some router
  connection : ∃ c, x.connection? router = some c ∧
    c.Ready (before.flatMap Envelope.wire ++ (answer.wire ++ after))
  time : timeout ≠ some .zero
  fresh : ∀ p ∈ x.pendingReplies, p.messageRef ≠ x.takeSendRef.1
  others : ∀ p ∈ before, p.Acceptable x.settings.limits ∧ isReplyTo x.takeSendRef.1 p = false
  acceptable : answer.Acceptable x.settings.limits
  reply : isReplyTo x.takeSendRef.1 answer

/-- The module once its query was answered: the query is on the router connection, everything up to
the answer is taken from there, and what came before it is kept in the order of arrival. -/
structure Asked (x y : ModuleContext) (router : ConnectionId) (message : Message) (id : Int32)
    (before : List Envelope) (after : Bytes) : Prop where
  rest : y = { x with
    connections := y.connections
    nextSendRef := x.takeSendRef.1
    pendingReplies := x.pendingReplies ++ replies before
    inbound := x.inbound ++ (otherTraffic before).map (router, ·) }
  others : ∀ other, other ≠ router → y.connection? other = x.connection? other
  exchanged : ∃ (c d : Connection) (m : Envelope),
    x.connection? router = some c ∧ y.connection? router = some d ∧
    d = { c with incoming := d.incoming, outgoing := d.outgoing } ∧
    d.outgoing.written = c.outgoing.written ++ m.wire ∧
    m.AsksAbout id message.id x.takeSendRef.1 ∧ d.incoming.unread = after

theorem statusOf_layOut (status : Int32) :
    statusOf (some (ByteOrder.host.layOut [status])) = some status := by
  show some (wordOfBytes _ _ _ _).toInt32 = _
  rw [wordOfBytes_bigEndian, Int32.toInt32_toUInt32]

theorem encode_idPayload (named : message.NamesExchange) (id : Int32) :
    encodeSegment .payload (content message.messageFormat (some (idPayload id))) =
      .ok (idPayload id) := by
  have short : (idPayload id).length ≤ Formatter.maxLength := (by decide : 4 ≤ Formatter.maxLength)
  rcases named.format with format | format
  · rw [format]
    exact Content.encode_of_ok .payload rfl rfl short
  · have encoded : Formatter.int32Array.encode (idPayload id) = .ok (idPayload id) :=
      Formatter.int32Array_encode_eq_ok_iff.mpr ⟨Nat.dvd_refl 4, rfl⟩
    rw [format]
    exact Content.encode_of_ok .payload (Formatter.int32Array_announces.size _ _ encoded) encoded short

def idRequest (name : String) (id messageRef : Int32) : SendRequest :=
  { message := name, payload := some (idPayload id), messageRef := some messageRef }

/-- A query about an exchange is built, and its payload is decoded to the id. -/
theorem build_idRequest (x : ModuleContext) (name : String) (named : message.NamesExchange)
    (id messageRef : Int32) :
    ∃ m, (x.draft message (idRequest name id messageRef) noRef messageRef).build = .ok m ∧
      m.Sound ∧ (m.withIntent message.id).AsksAbout id message.id messageRef := by
  have encoded := encode_idPayload named id
  obtain ⟨m, built⟩ := Draft.exists_build
    (d := x.draft message (idRequest name id messageRef) noRef messageRef) rfl encoded
  obtain ⟨layout, -, -, -, ref, -, payload⟩ := Draft.build_ok built
  have same : idPayload id = m.payload := Except.ok.inj (encoded.symm.trans payload)
  have decoded := Envelope.decodePayload_of_outgoing layout (same ▸ nofun)
  rw [← same] at decoded
  exact ⟨m, built, .of_build built, rfl, ref, decoded⟩

/-- A query about an exchange is sent as one envelope, and as much can be read as before. -/
theorem run_idRequest {c : Connection} {bytes : Bytes} (routed : x.router = some router)
    (hc : x.connection? router = some c) (ready : c.Ready bytes)
    (known : x.message? name = some message) (named : message.NamesExchange)
    (id messageRef : Int32) :
    ∃ (d : Connection) (m : Envelope),
      (sendMessage (idRequest name id messageRef)).run x =
        (.ok messageRef, x.setConnection router d) ∧
      d = { c with outgoing := d.outgoing } ∧ d.Ready bytes ∧
      d.outgoing.written = c.outgoing.written ++ m.wire ∧ m.AsksAbout id message.id messageRef := by
  obtain ⟨m, built, sound, asks⟩ := x.build_idRequest name named id messageRef
  have prepared : (prepareMessage (idRequest name id messageRef)).run x =
      (.ok ⟨router, message, messageRef, m⟩, x) :=
    prepareMessage_of_build routed known rfl built
  have sent : (c.send (m.withIntent message.id)).1 = .ok () :=
    Connection.send_of_sized (sound.withIntent message.id).toSized ready.isOpen ready.willing
  have willing := (Connection.send_of_willing ready.willing (m.withIntent message.id)).1
  have same := c.send_eq (m.withIntent message.id)
  have wire := Connection.send_ok sent
  have written := run_sendOn_of_some hc (m.withIntent message.id)
  rw [sent] at written
  generalize (c.send (m.withIntent message.id)).2 = d at willing same wire written
  refine ⟨d, m.withIntent message.id, ?_, same, ?_, wire, asks⟩
  · rw [run_sendMessage, prepared]
    simp only [named.routed, Bool.false_eq_true, if_false]
    rw [written]
    rfl
  · rw [same]
    exact ⟨ready.isOpen, ready.free, willing, ready.goesOn, ready.unread⟩

theorem run_waitForReply {c : Connection} {messageRef : Int32} (routed : x.router = some router)
    (hc : x.connection? router = some c)
    (ready : c.Ready (before.flatMap Envelope.wire ++ (answer.wire ++ after)))
    (time : timeout ≠ some .zero) (fresh : ∀ p ∈ x.pendingReplies, p.messageRef ≠ messageRef)
    (others : ∀ p ∈ before, p.Acceptable x.settings.limits ∧ isReplyTo messageRef p = false)
    (acceptable : answer.Acceptable x.settings.limits) (reply : isReplyTo messageRef answer) :
    ∃ s : Connection.Search,
      (waitForReply messageRef timeout).run x = (finishReply answer, x.afterSearch router s) ∧
      s.passed = before ∧ s.connection.incoming.unread = after ∧
      s.connection = { c with incoming := s.connection.incoming } := by
  have missing : (x.takePending messageRef).1 = none := by
    obtain ⟨_, m, _, split, -, found, -⟩ | ⟨-, kept⟩ := x.takePending_cases messageRef
    · exact absurd found (fresh m (split ▸ List.mem_append_right _ (List.mem_cons_self ..)))
    · rw [kept]
  have can : x.canRead router timeout := by
    refine ⟨c, ?_, ready.goesOn⟩
    simp only [admission, routed, Option.bind_some, hc, if_neg time, Connection.tryReader,
      Connection.ensureOpen, ready.isOpen, ready.free, if_true]
    rfl
  obtain ⟨s, ends, passed⟩ := waitInto_takes none missing can hc others acceptable reply ready.unread
  refine ⟨s, ?_, passed⟩
  have waited : (modifyGet fun x => x.waitInto messageRef timeout none : Act Waited).run x =
      (.ok (x.waitInto messageRef timeout none).1, (x.waitInto messageRef timeout none).2) := rfl
  simp only [waitForReply]
  rw [Act.run_bind_of_ok waited, ends]
  cases finishReply answer <;> rfl

/-- The query of a module is sent once, and its answer is had from behind what comes before it. -/
theorem Answers.run_query (answers : x.Answers timeout router before answer after)
    (known : x.message? name = some message) (named : message.NamesExchange) (id : Int32) :
    ∃ y, (query { message := name, payload := some (idPayload id) } timeout).run x =
        (finishReply answer, y) ∧ x.Asked y router message id before after := by
  obtain ⟨c, hc, ready⟩ := answers.connection
  have taken : nextRef.run x = (.ok x.takeSendRef.1, x.takeSendRef.2) := rfl
  obtain ⟨d, m, sent, same, ready', written, asks⟩ := run_idRequest (x := x.takeSendRef.2)
    answers.routed hc ready known named id x.takeSendRef.1
  obtain ⟨s, waited, rfl, left, rest⟩ := run_waitForReply
    (x := x.takeSendRef.2.setConnection router d) answers.routed (connection?_setConnection_self hc d)
    ready' answers.time answers.fresh answers.others answers.acceptable answers.reply
  refine ⟨(x.takeSendRef.2.setConnection router d).afterSearch router s, ?_, ?_⟩
  · simp only [query]
    rw [Act.run_bind_of_ok taken]
    exact (Act.run_bind_of_ok sent).trans waited
  · refine ⟨rfl, fun other elsewhere => ?_, c, s.connection, m, hc, ?_, ?_, ?_, asks, left⟩
    · show ((x.setConnection router d).setConnection router s.connection).connection? other = _
      rw [connection?_setConnection, if_neg elsewhere, connection?_setConnection, if_neg elsewhere]
    · exact connection?_setConnection_self (connection?_setConnection_self hc d) s.connection
    · rw [rest, same]
    · rw [rest]
      exact written

theorem Answers.bound (answers : x.Answers timeout router before answer after) (h : Handle) :
    (x.bound h).Answers timeout router before answer after :=
  ⟨answers.routed, answers.connection, answers.time, answers.fresh, answers.others,
    answers.acceptable, answers.reply⟩

/-- The message of a reference is had from it or by its name, and the reference is bound to it. -/
theorem run_resolveMessage (live : x.references.get h = .ok r)
    (subject : x.messageOf r = some message) :
    (resolveMessage h).run x = (.ok message, x.bound h) := by
  refine Prod.ext ?_ (state_resolveMessage h x)
  have found : (reference h).run x = (.ok r, x) := by rw [run_reference, live]
  simp only [resolveMessage]
  rw [Act.run_bind_of_ok found]
  obtain ⟨id, bound, name, replyTo, response⟩ := r
  cases bound with
  | some m => exact congrArg Except.ok (Option.some.inj subject)
  | none =>
    cases name with
    | none => cases subject
    | some name =>
      have known : (requireMessage name).run x = (.ok message, x) := by
        rw [run_requireMessage, show x.message? name = some message from subject]
      dsimp only
      rw [Act.run_bind_of_ok known, run_bind, run_editReference, live]
      rfl

theorem run_decodePayload (m : Envelope) (f : Formatter) (x : ModuleContext) :
    (decodePayload m f).run x = ((m.decodePayload f).mapError .frame, x) := by
  rw [decodePayload]
  cases m.decodePayload f <;> rfl

def answeredStatus (message : Message) (m : Envelope) : Except PeerError Int32 := do
  let value ← (m.decodePayload (message.responseFormat.getD .int32Array)).mapError .frame
  match statusOf value with
  | some status => return status
  | none => throw .nullReply

def answeredData (format : Formatter) (m : Envelope) : Except PeerError Bytes := do
  match ← (m.decodePayload format).mapError .frame with
  | some value => return value
  | none => throw .nullReply

theorem finishReply_bind {α : Type} (sized : answer.Sized) (f : Envelope → Except PeerError α) :
    finishReply answer >>= f = if answer.payload = [] then .error .nullReply else f answer := by
  by_cases empty : answer.payload = []
  · have none : ¬ answer.hasPayload = true := fun some => sized.hasPayload_iff.mp some empty
    rw [finishReply, if_neg none, if_pos empty]
    rfl
  · rw [finishReply, if_pos (sized.hasPayload_iff.mpr empty), if_neg empty]
    rfl

theorem Answers.run_referenceStatus (answers : x.Answers timeout router before answer after)
    (live : x.references.get h = .ok r) (known : x.message? statusQuery = some message)
    (named : message.NamesExchange) :
    ∃ y, (referenceStatus h timeout).run x = (finishReply answer >>= answeredStatus message, y) ∧
      x.Asked y router message r.id before after := by
  obtain ⟨y, asked, leaves⟩ := answers.run_query known named r.id
  have required : (requireMessage statusQuery).run x = (.ok message, x) := by
    rw [run_requireMessage, known]
  have found : (reference h).run x = (.ok r, x) := by rw [run_reference, live]
  refine ⟨y, ?_, leaves⟩
  simp only [referenceStatus]
  rw [Act.run_bind_of_ok required, Act.run_bind_of_ok found, run_bind, asked]
  cases finishReply answer with
  | error e => rfl
  | ok m =>
    show ((decodePayload m (message.responseFormat.getD .int32Array)) >>= _).run y =
      (answeredStatus message m, y)
    rw [run_bind, run_decodePayload, answeredStatus]
    cases m.decodePayload (message.responseFormat.getD .int32Array) with
    | error e => rfl
    | ok value =>
      show (match statusOf value with
        | some status => pure status
        | none => throw .nullReply : Act Int32).run y = (match statusOf value with
        | some status => pure status
        | none => throw .nullReply, y)
      cases statusOf value <;> rfl

theorem Answers.run_referenceData {subject : Message} {format : Formatter}
    (answers : x.Answers timeout router before answer after) (live : x.references.get h = .ok r)
    (known : x.message? dataQuery = some message) (named : message.NamesExchange)
    (about : x.messageOf r = some subject) (formatted : subject.messageFormat = some format) :
    ∃ y, (referenceData h timeout).run x = (finishReply answer >>= answeredData format, y) ∧
      (x.bound h).Asked y router message r.id before after := by
  obtain ⟨y, asked, leaves⟩ := (answers.bound h).run_query known named r.id
  obtain ⟨bound, live'⟩ := get_bound live
  have required : (requireMessage dataQuery).run x = (.ok message, x) := by
    rw [run_requireMessage, known]
  have found : (reference h).run (x.bound h) = (.ok { r with message := bound }, x.bound h) := by
    rw [run_reference, live']
  refine ⟨y, ?_, leaves⟩
  simp only [referenceData]
  rw [Act.run_bind_of_ok required, Act.run_bind_of_ok (run_resolveMessage live about), formatted]
  dsimp only
  rw [Act.run_bind_of_ok found, run_bind, asked]
  cases finishReply answer with
  | error e => rfl
  | ok m =>
    show ((decodePayload m format) >>= _).run y = (answeredData format m, y)
    rw [run_bind, run_decodePayload, answeredData]
    cases m.decodePayload format with
    | error e => rfl
    | ok value => cases value <;> rfl

theorem answeredStatus_layOut {order : ByteOrder} {status : Int32} (sound : answer.Sound)
    (written : answer.classifier.dataOrder = order) (known : order ≠ .unknown)
    (format : message.responseFormat = none ∨ message.responseFormat = some .int32Array)
    (payload : answer.payload = order.layOut [status]) :
    answeredStatus message answer = .ok status := by
  have integers : message.responseFormat.getD .int32Array = .int32Array := by
    rcases format with format | format <;> rw [format] <;> rfl
  have filled : [status] ≠ [] := List.cons_ne_nil _ _
  have decoded := Envelope.decodePayload_layOut sound.packed written known filled payload
  rw [answeredStatus, integers, decoded]
  show (match statusOf (some (ByteOrder.host.layOut [status])) with
    | some status => pure status
    | none => throw .nullReply : Except PeerError Int32) = _
  rw [statusOf_layOut]
  rfl

theorem answeredData_of_decodePayload {format : Formatter} {value : Bytes}
    (decoded : answer.decodePayload format = .ok (some value)) :
    answeredData format answer = .ok value := by
  rw [answeredData, decoded]
  rfl

/-- A module that asks about a live reference sends one query, which names its id, and keeps what comes
before the answer. An empty answer is an error. Otherwise the module has the status that the router
answered, or the integers in its own layout or the text that it sent, in whichever order they came. -/
theorem queries_exact (live : x.references.get h = .ok r) :
    (∀ message timeout router before answer after,
      x.message? statusQuery = some message → message.NamesExchange →
      x.Answers timeout router before answer after →
      ∃ result y, (referenceStatus h timeout).run x = (result, y) ∧
        x.Asked y router message r.id before after ∧
        (answer.payload = [] → result = .error .nullReply) ∧
        ∀ order status, order ≠ .unknown → answer.classifier.dataOrder = order →
          message.responseFormat = none ∨ message.responseFormat = some .int32Array →
          answer.payload = order.layOut [status] → result = .ok status) ∧
    ∀ message subject format timeout router before answer after,
      x.message? dataQuery = some message → message.NamesExchange →
      x.messageOf r = some subject → subject.messageFormat = some format →
      x.Answers timeout router before answer after →
      ∃ result y, (referenceData h timeout).run x = (result, y) ∧
        (x.bound h).Asked y router message r.id before after ∧
        (answer.payload = [] → result = .error .nullReply) ∧
        ∀ order, order ≠ .unknown → answer.classifier.dataOrder = order →
          (∀ numbers, format = .int32Array → numbers ≠ [] → answer.payload = order.layOut numbers →
            result = .ok (ByteOrder.host.layOut numbers)) ∧
          ∀ text, format = .text → order.Opens answer.payload (textBytes text) →
            result = .ok (textBytes text) := by
  constructor
  · intro message timeout router before answer after known named answers
    have sound : answer.Sound := ⟨answers.acceptable.toSized, answers.acceptable.packed⟩
    obtain ⟨y, run, asked⟩ := answers.run_referenceStatus live known named
    refine ⟨_, y, run, asked, ?_, ?_⟩
    · intro empty
      rw [finishReply_bind sound.toSized, if_pos empty]
    · intro order status readable written format payload
      have filled : answer.payload ≠ [] :=
        payload ▸ ByteOrder.layOut_ne_nil readable (List.cons_ne_nil _ _)
      rw [finishReply_bind sound.toSized, if_neg filled]
      exact answeredStatus_layOut sound written readable format payload
  · intro message subject format timeout router before answer after known named about formatted answers
    have sound : answer.Sound := ⟨answers.acceptable.toSized, answers.acceptable.packed⟩
    obtain ⟨y, run, asked⟩ := answers.run_referenceData live known named about formatted
    refine ⟨_, y, run, asked, ?_, ?_⟩
    · intro empty
      rw [finishReply_bind sound.toSized, if_pos empty]
    · intro order readable written
      constructor
      · rintro numbers rfl some payload
        have filled : answer.payload ≠ [] := payload ▸ ByteOrder.layOut_ne_nil readable some
        rw [finishReply_bind sound.toSized, if_neg filled]
        exact answeredData_of_decodePayload
          (Envelope.decodePayload_layOut sound.packed written readable some payload)
      · rintro text rfl payload
        rw [finishReply_bind sound.toSized, if_neg payload.ne_nil]
        exact answeredData_of_decodePayload (Envelope.decodePayload_text sound.packed written payload)

/-- A module that knows the two queries, and a message with integers by the name that one of its
references has. Some envelopes have arrived for it, and one byte more. -/
def curious (arrived : List Envelope) : ModuleContext :=
  let queries := (quiet.registerMessage { name := statusQuery, id := 8, messageClass := .query })
    |>.registerMessage
      { name := dataQuery, id := 9, messageClass := .query, messageFormat := some .int32Array }
    |>.registerMessage
      { name := "numbers", id := 5, messageClass := .inform, messageFormat := some .int32Array }
  let referring := (queries.createReference none (some "numbers") 7).2
  (referring.apply 0 (.arrives (arrived.flatMap Envelope.wire ++ [7]))).2

def pdpReply (payload : Bytes) : Envelope :=
  let m := Envelope.plain queryReplyIntent 1 payload
  { m with header := { m.header with classifier := (Classifier.mk 7 .pdp .pdp .packed).pack } }

def otherMail : List Envelope := [.plain queryReplyIntent 6 [1], .plain 3 1 [2]]

theorem curious_answers (payload : Bytes) (within : (pdpReply payload).Acceptable {}) :
    (curious (otherMail ++ [pdpReply payload])).Answers none 0 otherMail (pdpReply payload) [7] := by
  have others : ∀ p ∈ otherMail, p.Acceptable {} ∧ isReplyTo 1 p = false := by decide +kernel
  refine ⟨rfl, ⟨_, rfl, rfl, rfl, ⟨rfl, nofun⟩, nofun, ?_⟩, nofun, nofun, others, within, rfl⟩
  show [] ++ ((otherMail ++ [pdpReply payload]).flatMap Envelope.wire ++ [7]) = _
  simp only [List.nil_append, List.flatMap_append, List.flatMap_singleton, List.append_assoc]

theorem queries_exact_middleEndian :
    let asksStatus := (referenceStatus ⟨0, 0⟩ none).run
      (curious (otherMail ++ [pdpReply [255, 255, 254, 255]]))
    let asksData := (referenceData ⟨0, 0⟩ none).run
      (curious (otherMail ++ [pdpReply [0, 0, 1, 0, 255, 255, 254, 255]]))
    asksStatus.1 = .ok (-2) ∧ asksStatus.2.pendingReplies = [.plain queryReplyIntent 6 [1]] ∧
      asksStatus.2.inbound = [(0, .plain 3 1 [2])] ∧
      asksData.1 = .ok [1, 0, 0, 0, 254, 255, 255, 255] := by
  obtain ⟨status, -⟩ := queries_exact (x := curious (otherMail ++ [pdpReply [255, 255, 254, 255]]))
    (h := ⟨0, 0⟩) rfl
  obtain ⟨-, data⟩ := queries_exact (h := ⟨0, 0⟩)
    (x := curious (otherMail ++ [pdpReply [0, 0, 1, 0, 255, 255, 254, 255]])) rfl
  obtain ⟨result, y, run, asked, -, exact⟩ := status _ none 0 otherMail _ [7] rfl ⟨rfl, .inl rfl⟩
    (curious_answers _ (by decide +kernel))
  obtain ⟨result', y', run', -, -, exact'⟩ := data _ _ _ none 0 otherMail _ [7] rfl ⟨rfl, .inr rfl⟩
    rfl rfl (curious_answers _ (by decide +kernel))
  have order : ∀ payload, (pdpReply payload).classifier.dataOrder = .pdp := fun _ =>
    Classifier.dataOrder_unpack_pack _
  have first : result = .ok (-2) := exact .pdp (-2) nofun (order _) (.inl rfl) rfl
  have second : result' = .ok [1, 0, 0, 0, 254, 255, 255, 255] :=
    (exact' .pdp nofun (order _)).1 [1, -2] rfl nofun rfl
  have kept : replies otherMail = [.plain queryReplyIntent 6 [1]] := by decide +kernel
  have queued : (otherTraffic otherMail).map ((0 : ConnectionId), ·) = [(0, .plain 3 1 [2])] := by
    decide +kernel
  dsimp only
  rw [run, run', first, second]
  exact ⟨rfl, (congrArg pendingReplies asked.rest).trans kept,
    (congrArg inbound asked.rest).trans queued, rfl⟩

end ModuleContext

end ModuleLink
