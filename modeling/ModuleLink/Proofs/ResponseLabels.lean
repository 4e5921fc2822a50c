import Mathlib.Tactic.Common
import ModuleLink.Proofs.QueryReplies
import ModuleLink.Proofs.ResponseSteps

/-! # What a response says, and where it goes

A response that succeeds is one envelope on one connection. Its labels come from the reference that it
is through and from that reference's message, its data goes out in the format of the message that it is
relabelled as or else of the message that it answers, and it goes where it is told to or where the
query came from, and to the router where neither is there. -/
namespace ModuleLink

/-- A segment as it should be: a value in its format, the value itself without one, nothing without a
value. -/
def Spells (format : Option Formatter) (value : Option Bytes) (segment : Bytes) : Prop :=
  match value, format with
  | none, _ => segment = []
  | some v, none => segment = v
  | some v, some f => f.encode v = .ok segment

/-- What was encoded for a segment is what it should be. -/
theorem spells_of_encodeSegment {part : Segment} {format : Option Formatter} {value : Option Bytes}
    {segment : Bytes} (h : encodeSegment part (ModuleContext.content format value) = .ok segment) :
    Spells format value segment := by
  cases value with
  | none => exact (Except.ok.inj h).symm
  | some v =>
    have encoded := Content.encode_ok h
    cases format with
    | none => exact (Except.ok.inj encoded).symm
    | some f => exact encoded

theorem Classifier.unpack_pack_outgoing (classId : UInt16) :
    unpack (outgoing classId).pack = outgoing classId :=
  unpack_pack rfl

theorem Draft.build_ok {d : Draft} {m : Envelope} (h : d.build = .ok m) :
    m.classifier = .outgoing d.classId ∧ m.header.parentRef = d.parentRef ∧ m.intent = d.intent ∧
      m.header.dispatchRef = d.dispatchRef ∧ m.messageRef = d.messageRef ∧
      encodeSegment .classData d.classData = .ok m.classData ∧
      encodeSegment .payload d.payload = .ok m.payload := by
  obtain ⟨classData, hc, h⟩ := ok_of_bind h
  obtain ⟨payload, hp, h⟩ := ok_of_bind h
  obtain rfl := Except.ok.inj h
  exact ⟨Classifier.unpack_pack_outgoing d.classId, rfl, rfl, rfl, rfl, hc, hp⟩

namespace ModuleContext

/-- The message that a reference is for: the one that it was bound to, or the one of its name. -/
def messageOf (x : ModuleContext) (r : Reference) : Option Message :=
  r.message.or (r.name.bind x.message?)

def exchangeOf (x : ModuleContext) (response : Response) : Option (Reference × Message) :=
  response.reference.bind fun h =>
    (x.references.get h).toOption.bind fun r => (x.messageOf r).map fun message => (r, message)

def directExchange (x : ModuleContext) (response : Response) : Option (Reference × Message) :=
  (x.exchangeOf response).filter (·.2.direct)

/-- The format of the message that the response is relabelled as, or of the one that it answers. -/
def dataFormat (x : ModuleContext) (response : Response) : Option Formatter :=
  match response.relabelAs with
  | some name => (x.message? name).bind (·.messageFormat)
  | none => (x.exchangeOf response).bind (·.2.responseFormat)

def destination (x : ModuleContext) (response : Response) : Option ConnectionId :=
  response.via.or
    ((((x.exchangeOf response).bind (·.1.replyTo)).filter (· ∈ x.table)).or x.router)

/-- The class segment of a response: the name that it is relabelled as, or its class data. -/
def classContent (x : ModuleContext) (response : Response) : Option Content :=
  match response.relabelAs with
  | some name => content (some .text) (some (textBytes name))
  | none => content (x.classFormat response.messageClass) response.classData

def labelsOf (x : ModuleContext) (response : Response) : ResponseLabels where
  intent := (x.directExchange response).elim unspecifiedIntent fun _ => queryReplyIntent
  messageRef := (x.directExchange response).elim noRef (·.1.id)
  format := if response.data.isSome then (x.exchangeOf response).bind (·.2.responseFormat) else none

def responseDraft (x : ModuleContext) (response : Response) : Draft where
  classId := response.messageClass.id
  parentRef := x.parentRef
  intent := (x.labelsOf response).intent
  dispatchRef := (x.exchangeOf response).elim noRef (·.1.id)
  messageRef := (x.labelsOf response).messageRef
  payload := content (x.dataFormat response) response.data
  classData := x.classContent response

/-- The envelope of a response. -/
structure Labels (x : ModuleContext) (response : Response) (m : Envelope) : Prop where
  /-- The reference of the response is there, and its message is known. -/
  answers : response.reference.isSome → (x.exchangeOf response).isSome
  /-- The message that it is relabelled as is known. -/
  relabels : ∀ name, response.relabelAs = some name → (x.message? name).isSome
  classifier : m.classifier = .outgoing response.messageClass.id
  parentRef : m.header.parentRef = x.parentRef
  dispatchRef : m.header.dispatchRef = (x.exchangeOf response).elim noRef (·.1.id)
  intent : m.intent = (x.directExchange response).elim unspecifiedIntent fun _ => queryReplyIntent
  messageRef : m.messageRef = (x.directExchange response).elim noRef (·.1.id)
  payload : Spells (x.dataFormat response) response.data m.payload
  classData : match response.relabelAs with
    | some name => Spells (some .text) (some (textBytes name)) m.classData
    | none => Spells (x.classFormat response.messageClass) response.classData m.classData

variable {x y : ModuleContext} {response : Response} {answered : Option (Handle × Reference)}

theorem Labels.of_build {m : Envelope} (built : (x.responseDraft response).build = .ok m)
    (answers : response.reference.isSome → (x.exchangeOf response).isSome)
    (relabels : ∀ name, response.relabelAs = some name → (x.message? name).isSome) :
    x.Labels response m := by
  obtain ⟨classifier, parentRef, intent, dispatchRef, messageRef, classData, payload⟩ :=
    Draft.build_ok built
  refine ⟨answers, relabels, classifier, parentRef, dispatchRef, intent, messageRef,
    spells_of_encodeSegment payload, ?_⟩
  simp only [responseDraft, classContent] at classData
  cases relabelled : response.relabelAs with
  | none =>
    rw [relabelled] at classData
    exact spells_of_encodeSegment classData
  | some name =>
    rw [relabelled] at classData
    exact spells_of_encodeSegment classData

theorem requireMessage_ok {name : String} {message : Message}
    (h : (requireMessage name).run x = (.ok message, y)) : x.message? name = some message ∧ y = x := by
  rw [run_requireMessage] at h
  cases known : x.message? name with
  | none =>
    rw [known] at h
    cases h
  | some m =>
    rw [known] at h
    obtain ⟨same, rfl⟩ := Prod.mk.inj h
    exact ⟨congrArg some (Except.ok.inj same), rfl⟩

theorem resolveMessage_ok {h : Handle} {message : Message} {r : Reference}
    (got : x.references.get h = .ok r) (resolved : (resolveMessage h).run x = (.ok message, y)) :
    x.messageOf r = some message := by
  obtain ⟨r', z, found, resolved⟩ := run_bind_ok resolved
  rw [run_reference, got] at found
  obtain ⟨same, rfl⟩ := Prod.mk.inj found
  obtain rfl := Except.ok.inj same
  obtain ⟨id, bound, name, replyTo, state⟩ := r
  cases bound with
  | some m => exact congrArg some (Except.ok.inj (Prod.mk.inj resolved).1)
  | none =>
    cases name with
    | none => cases resolved
    | some name =>
      obtain ⟨m, z, known, resolved⟩ := run_bind_ok resolved
      obtain ⟨-, z', -, resolved⟩ := run_bind_ok resolved
      obtain rfl := Except.ok.inj (Prod.mk.inj resolved).1
      exact (requireMessage_ok known).1

theorem responseLabels_ok {labels : ResponseLabels} (given : x.referenceOf response = .ok answered)
    (h : (responseLabels response answered).run x = (.ok labels, y)) :
    (response.reference.isSome → (x.exchangeOf response).isSome) ∧
      answered.map Prod.snd = (x.exchangeOf response).map Prod.fst ∧
      labels = x.labelsOf response := by
  obtain ⟨through, found⟩ | ⟨h', e, -, -, stale⟩ | ⟨h', r, through, got, found⟩ :=
    x.referenceOf_cases response
  · obtain rfl := Except.ok.inj (found.symm.trans given)
    obtain rfl := Except.ok.inj (Prod.mk.inj h).1
    simp only [labelsOf, directExchange, exchangeOf, through, Option.bind_none, ite_self]
    exact ⟨nofun, rfl, rfl⟩
  · cases stale.symm.trans given
  · obtain rfl := Except.ok.inj (found.symm.trans given)
    obtain ⟨message, z, resolved, h⟩ := run_bind_ok h
    have exchange : x.exchangeOf response = some (r, message) := by
      simp only [exchangeOf, through, got, Option.bind_some, Except.toOption,
        resolveMessage_ok got resolved, Option.map_some]
    simp only [labelsOf, directExchange, exchange, Option.filter_some]
    refine ⟨fun _ => rfl, rfl, ?_⟩
    cases direct : message.direct with
    | true =>
      simp only [direct, if_true] at h
      exact (Except.ok.inj (Prod.mk.inj h).1).symm
    | false =>
      simp only [direct, Bool.false_eq_true, if_false] at h
      exact (Except.ok.inj (Prod.mk.inj h).1).symm

theorem name_of_message? {name : String} {message : Message} (h : x.message? name = some message) :
    message.name = name :=
  of_decide_eq_true (List.find?_some (p := fun m : Message => decide (m.name = name)) h)

theorem build_run_ok {d : Draft} {m : Envelope} (h : (build d).run x = (.ok m, y)) :
    d.build = .ok m := by
  simp only [build] at h
  cases built : d.build with
  | error e =>
    rw [built] at h
    cases h
  | ok n =>
    rw [built] at h
    exact congrArg Except.ok (Except.ok.inj (Prod.mk.inj h).1)

/-- With the labels of the exchange, the envelope is built from the draft. What has become of the
references meanwhile does not matter. -/
theorem encodeResponse_ok {references : ReferenceTable Reference} {m : Envelope}
    (exchange : answered.map Prod.snd = (x.exchangeOf response).map Prod.fst)
    (h : (encodeResponse response answered (x.labelsOf response)).run { x with references } =
      (.ok m, y)) :
    (x.responseDraft response).build = .ok m ∧
      ∀ name, response.relabelAs = some name → (x.message? name).isSome := by
  have dispatchRef : answered.elim noRef (·.2.id) = (x.exchangeOf response).elim noRef (·.1.id) := by
    have := congrArg (Option.elim · noRef Reference.id) exchange
    simpa only [Option.elim_map, Function.comp_def] using this
  simp only [encodeResponse, dispatchRef] at h
  simp only [responseDraft, dataFormat, classContent]
  cases relabelled : response.relabelAs with
  | none =>
    simp only [relabelled] at h
    have built := build_run_ok h
    refine ⟨?_, nofun⟩
    cases given : response.data with
    | none =>
      rw [given] at built
      exact built
    | some data =>
      simp only [given, labelsOf] at built
      exact built
  | some name =>
    simp only [relabelled] at h
    obtain ⟨message, z, known, encoded⟩ := run_bind_ok h
    obtain ⟨found, rfl⟩ := requireMessage_ok known
    have found : x.message? name = some message := found
    have built := build_run_ok encoded
    rw [name_of_message? found] at built
    simp only [found]
    exact ⟨built, fun _ same => by rw [← Option.some.inj same, found]; rfl⟩

/-- A response that could be prepared has its labels and its destination by the state before. -/
theorem prepareResponse_labels {p : PreparedResponse}
    (h : (prepareResponse response).run x = (.ok p, y)) :
    x.Labels response p.envelope ∧ x.destination response = some p.via := by
  obtain ⟨labels, given, labelled, encoded, addressed⟩ := prepareResponse_steps h
  obtain ⟨answers, exchange, rfl⟩ := responseLabels_ok given labelled
  rw [boundBy_eq] at encoded addressed
  obtain ⟨built, relabels⟩ := encodeResponse_ok exchange encoded
  refine ⟨.of_build built answers relabels, ?_⟩
  have origin : p.answered.bind (·.2.replyTo) = (x.exchangeOf response).bind (·.1.replyTo) := by
    have := congrArg (Option.bind · Reference.replyTo) exchange
    simpa only [Option.bind_map, Function.comp_def] using this
  have way := responseConnection_way addressed
  rw [origin] at way
  exact way

/-- A response that succeeds has written one envelope, and nothing else, on the connection that it goes
to; and the envelope has the labels of the response. -/
theorem sendResponse_labelled (wired : x.Wired)
    (known : ∀ id, response.via = some id → (x.connection? id).isSome = true)
    (done : (sendResponse response).run x = (.ok (), y)) :
    ∃ id c d m, x.destination response = some id ∧ x.connection? id = some c ∧
      x.Labels response m ∧ d = { c with outgoing := d.outgoing } ∧
      d.outgoing.written = c.outgoing.written ++ m.wire ∧
      ∀ other, y.connection? other = if other = id then some d else x.connection? other := by
  rw [sendResponse_eq] at done
  obtain ⟨p, z, prepared, rest⟩ := run_bind_ok done
  obtain ⟨⟨⟩, z', sent, settled⟩ := run_bind_ok rest
  obtain ⟨labels, way⟩ := prepareResponse_labels prepared
  obtain ⟨given, target⟩ := prepareResponse_ok prepared
  have there : (x.connection? p.via).isSome = true :=
    target.elim (known p.via) fun on => on.elim (wired.table p.via) (wired.router p.via)
  obtain ⟨c, hc⟩ := Option.isSome_iff_exists.mp there
  have bound := state_prepareResponse response x
  rw [prepared] at bound
  obtain rfl : z = x.boundBy response := bound
  have same : ∀ other, (x.boundBy response).connection? other = x.connection? other := by
    intro other
    rw [boundBy_eq]
    rfl
  have hc' : (x.boundBy response).connection? p.via = some c := (same p.via).trans hc
  obtain ⟨whole, rfl⟩ := sendOn_ok hc' sent
  rw [run_settleAnswered (z := (x.boundBy response).setConnection p.via (c.send p.envelope).2) given
    rfl] at settled
  refine ⟨p.via, c, (c.send p.envelope).2, p.envelope, way, hc, labels, c.send_eq p.envelope,
    Connection.send_ok whole, fun other => ?_⟩
  rw [← (Prod.mk.inj settled).2, ← same other]
  refine (connection?_setConnection _ p.via other _).trans ?_
  rw [hc']
  rfl

def promptMessage : Message :=
  { name := "prompt", id := 5, messageClass := .query, responseFormat := some .text, direct := true }

/-- A module that came to know this message after a query of its name was adopted from a connection
beside the router's. -/
def prompted : ModuleContext :=
  let peer : Connection := { name := "peer", kind := .unix, peer := "peer" }
  let (id, x) := quiet.openConnection peer
  (adoptQuery (x.addConnection id) (.plain 5 9 []) id "prompt").2.registerMessage promptMessage

def promptReply : Response :=
  { messageClass := .reply, reference := some ⟨0, 0⟩, data := some [0x6f, 0x6b] }

def promptRelabelled : Response :=
  { promptReply with messageClass := .relabelled, relabelAs := some "prompt", via := some 0 }

theorem sendResponse_labelled_prompted :
    prompted.Wired ∧
      (∃ (y : ModuleContext) (d : Connection) (m : Envelope),
        (sendResponse promptReply).run prompted = (.ok (), y) ∧
        y.connection? 0 = prompted.connection? 0 ∧ y.connection? 1 = some d ∧
        d.outgoing.written = m.wire ∧ m.intent = queryReplyIntent ∧ m.messageRef = 9 ∧
        m.payload = [2, 0, 0, 0, 0x6f, 0x6b]) ∧
      ∃ (y : ModuleContext) (d : Connection) (m : Envelope),
        (sendResponse promptRelabelled).run prompted = (.ok (), y) ∧
        y.connection? 1 = prompted.connection? 1 ∧ y.connection? 0 = some d ∧
        d.outgoing.written = m.wire ∧ m.header.dispatchRef = 9 ∧ m.payload = [0x6f, 0x6b] ∧
        Formatter.text.encode (textBytes "prompt") = .ok m.classData := by
  have wired : prompted.Wired := by
    refine ⟨by decide +kernel, fun id routed => ?_⟩
    obtain rfl : 0 = id := Option.some.inj routed
    rfl
  have known : ∀ id, promptRelabelled.via = some id → (prompted.connection? id).isSome = true := by
    intro id named
    obtain rfl : 0 = id := Option.some.inj named
    rfl
  have replied : ((sendResponse promptReply).run prompted).1 = .ok () := by decide +kernel
  have relabelled : ((sendResponse promptRelabelled).run prompted).1 = .ok () := by decide +kernel
  refine ⟨wired, ?_, ?_⟩
  · obtain ⟨id, c, d, m, way, hc, labels, -, written, after⟩ :=
      sendResponse_labelled wired (fun _ named => by cases named) (Prod.ext replied rfl)
    obtain rfl : id = 1 := Option.some.inj (way.symm.trans (by decide +kernel))
    have unused : c.outgoing.written = [] := by
      rw [← Option.some.inj hc]
    rw [unused] at written
    refine ⟨_, d, m, Prod.ext replied rfl, after 0, after 1, written, labels.intent,
      labels.messageRef, ?_⟩
    exact (Except.ok.inj (labels.payload.symm.trans (by decide +kernel)))
  · obtain ⟨id, c, d, m, way, hc, labels, -, written, after⟩ :=
      sendResponse_labelled wired known (Prod.ext relabelled rfl)
    obtain rfl : id = 0 := Option.some.inj (way.symm.trans (by decide +kernel))
    have unused : c.outgoing.written = [] := by
      rw [← Option.some.inj hc]
    rw [unused] at written
    exact ⟨_, d, m, Prod.ext relabelled rfl, after 1, after 0, written, labels.dispatchRef,
      labels.payload, labels.classData⟩

end ModuleContext

end ModuleLink
