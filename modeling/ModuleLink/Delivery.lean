import ModuleLink.ModuleContext

/-! # Sending messages and responses

A message goes to the router, or to each of its handlers that can still be reached, the last one
registered first. A handler whose other end is gone is torn down and the rest are still served. -/
namespace ModuleLink

structure SendRequest where
  message : String
  /-- The exchange that the message belongs to. -/
  reference : Option Handle := none
  payload : Option Bytes := none
  classData : Option Bytes := none
  /-- A message reference that the caller took beforehand. -/
  messageRef : Option Int32 := none

structure Response where
  messageClass : MessageClass
  reference : Option Handle := none
  /-- The message by whose format and name the data goes out. -/
  relabelAs : Option String := none
  data : Option Bytes := none
  classData : Option Bytes := none
  /-- The connection to respond on. -/
  via : Option ConnectionId := none

/-- A call that tears a connection down, with the module that it finds. -/
structure Closing where
  found : ModuleContext
  id : ConnectionId

/-- What a module does to its connections while it sends. -/
inductive SendEvent
  | wrote (id : ConnectionId) (m : Envelope) (result : Except PeerError Unit)
  | closed (call : Closing)

/-- A module that is sending, and what it did to its connections so far, in order. -/
structure Sending where
  sender : ModuleContext
  events : List SendEvent := []

/-- An act that keeps a record of what it does to connections. -/
abbrev SendAct := ExceptT PeerError (StateM Sending)

instance : MonadLift Act SendAct where
  monadLift act := ExceptT.mk fun s =>
    let (result, x) := act.run s.sender
    (result, { s with sender := x })

namespace SendAct

/-- The act without its record. -/
def forget {α : Type} (act : SendAct α) : Act α := ExceptT.mk fun x =>
  let (result, s) := act.run { sender := x }
  (result, s.sender)

def write (id : ConnectionId) (m : Envelope) : SendAct Unit := ExceptT.mk fun s =>
  let (result, x) := (ModuleContext.sendOn id m).run s.sender
  (result, ⟨x, s.events ++ [.wrote id m result]⟩)

/-- Tears a connection down: false if the module does not look after it. -/
def close (id : ConnectionId) : SendAct Bool := ExceptT.mk fun s =>
  let (tornDown, x) := s.sender.handleClosed id
  (.ok tornDown, ⟨x, s.events ++ [.closed ⟨s.sender, id⟩]⟩)

end SendAct

namespace ModuleContext

/-- Data without a format travels as it is. -/
def content (formatter : Option Formatter) (value : Option Bytes) : Option Content :=
  value.map fun v => ⟨formatter.getD .raw, v⟩

def build (d : Draft) : Act Envelope := do
  match d.build with
  | .ok m => return m
  | .error e => throw (.frame e)

/-- Sends to handlers one after the other. A broken connection that was torn down already, or that
the module does not look after, ends the delivery. -/
def deliver (m : Envelope) : List Handler → SendAct Unit
  | [] => return
  | h :: hs => do
    match (← get).liveConnection h with
    | none => deliver m hs
    | some id => do
      try SendAct.write id (m.withIntent h.intent)
      catch e => do
        if e.isBrokenPipe then
          let tornDown ← SendAct.close id
          unless tornDown do throw e
        else throw e
      deliver m hs

/-- A message that is ready to go out. -/
structure Outgoing where
  router : ConnectionId
  message : Message
  messageRef : Int32
  envelope : Envelope

def prepareMessage (q : SendRequest) : Act Outgoing := do
  let router ← requireRouter
  let message ← requireMessage q.message
  let messageRef ← match q.messageRef with
    | some r => pure r
    | none => nextRef
  let dispatchRef ← match q.reference with
    | some h => Reference.id <$> reference h
    | none => pure noRef
  let x ← get
  let envelope ← build {
    classId := message.messageClass.id
    parentRef := x.parentRef
    dispatchRef
    messageRef
    payload := content message.messageFormat q.payload
    classData := content (x.classFormat message.messageClass) q.classData }
  return { router, message, messageRef, envelope }

/-- Sends a message and says under which message reference it went. -/
def sendRecorded (q : SendRequest) : SendAct Int32 := do
  let out ← prepareMessage q
  if out.message.deliversDirectly then
    deliver out.envelope out.message.handlers.reverse
  else
    SendAct.write out.router (out.envelope.withIntent out.message.id)
  return out.messageRef

def sendMessage (q : SendRequest) : Act Int32 := (sendRecorded q).forget

/-- Where a response goes that names no connection: to the connection of the query while the
module looks after it, else to the router. -/
def replyConnection (replyTo : Option ConnectionId) : Act ConnectionId := do
  match replyTo.filter (· ∈ (← get).table) with
  | some id => return id
  | none => requireRouter

/-- What a response carries, by its reference and by the message it is relabelled as. -/
structure ResponseLabels where
  intent : Int32 := unspecifiedIntent
  messageRef : Int32 := noRef
  format : Option Formatter := none

def responseLabels (response : Response) : Option (Handle × Reference) → Act ResponseLabels
  | none => return {}
  | some (h, r) => do
    let message ← resolveMessage h
    let format := if response.data.isSome then message.responseFormat else none
    if message.direct then return { intent := queryReplyIntent, messageRef := r.id, format }
    else return { format }

/-- A reference that was answered is freed if it was detached, and marked otherwise. -/
def settleReference (h : Handle) (r : Reference) : Act Unit :=
  match r.response with
  | .detached => freeReference h
  | _ => editReference h fun r => { r with response := .responded }

def sendResponse (response : Response) : Act Unit := do
  let answered ← match response.reference with
    | some h => do pure (some (h, ← reference h))
    | none => pure none
  let labels ← responseLabels response answered
  let (format, classData) ← match response.relabelAs with
    | some name => do
      let message ← requireMessage name
      pure (message.messageFormat, content (some .text) (some (textBytes message.name)))
    | none => do
      pure (labels.format, content ((← get).classFormat response.messageClass) response.classData)
  let envelope ← build {
    classId := response.messageClass.id
    parentRef := (← get).parentRef
    intent := labels.intent
    dispatchRef := answered.elim noRef (·.2.id)
    messageRef := labels.messageRef
    payload := content format response.data
    classData }
  let id ← match response.via with
    | some id => pure id
    | none => replyConnection (answered.bind (·.2.replyTo))
  sendOn id envelope
  match answered with
  | some (h, r) => settleReference h r
  | none => return

/-- Answers an exchange without data. -/
def respondWith (h : Handle) (c : MessageClass) : Act Unit :=
  sendResponse { messageClass := c, reference := some h }

/-- Answers a query with data in its response format. -/
def reply (h : Handle) (data : Bytes) : Act Unit :=
  sendResponse { messageClass := .reply, reference := some h, data := some data }

end ModuleContext

end ModuleLink
