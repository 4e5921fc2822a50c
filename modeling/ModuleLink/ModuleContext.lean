import ModuleLink.Connections
import ModuleLink.Messages
import ModuleLink.ModuleSettings
import ModuleLink.ReferenceTable

/-! # The state of one module

A module has a router connection, a table of the connections it looks after, the messages it
knows, the references of its exchanges, and two queues of envelopes that were read while it waited
for something else: replies to other queries, and all other traffic. -/
namespace ModuleLink

inductive ResponseState
  | pending
  | responded
  /-- Answered outside its handler, and freed with the answer. -/
  | detached
  deriving DecidableEq, Repr

def ResponseState.label : ResponseState → String
  | pending => "Pending"
  | responded => "Responded"
  | detached => "Detached"

/-- One side of an exchange. -/
structure Reference where
  id : Int32
  message : Option Message := none
  name : Option String := none
  /-- Where the answer is expected. -/
  replyTo : Option ConnectionId := none
  response : ResponseState := .pending

structure ModuleContext where
  settings : ModuleSettings := {}
  messages : MessageRegistry := []
  classFormat : MessageClass → Option Formatter :=
    fun c => if c = .relabelled then some .text else none
  parentRef : Int32 := noRef
  /-- Every connection opened so far, by its number. -/
  connections : List Connection := []
  /-- The connections that the module looks after. -/
  table : List ConnectionId := []
  router : Option ConnectionId := none
  nextSendRef : Int32 := 0
  pendingReplies : List Envelope := []
  inbound : List (ConnectionId × Envelope) := []
  references : ReferenceTable Reference := {}
  /-- What one run of the hook for a lost router adds to the tally. -/
  routerLostHook : Option Nat := none
  routerLostTally : Nat := 0

/-- What a module does: it may fail, and keeps what it changed until then. -/
abbrev Act := ExceptT PeerError (StateM ModuleContext)

namespace ModuleContext

def connection? (x : ModuleContext) (id : ConnectionId) : Option Connection := x.connections[id]?

def setConnection (x : ModuleContext) (id : ConnectionId) (c : Connection) : ModuleContext :=
  { x with connections := x.connections.set id c }

def isOpen (x : ModuleContext) (id : ConnectionId) : Bool := (x.connection? id).any (·.isOpen)

def isConnected (x : ModuleContext) : Bool := x.router.any x.isOpen

/-- Opens a connection that the module does not look after. -/
def openConnection (x : ModuleContext) (c : Connection) : ConnectionId × ModuleContext :=
  (x.connections.length, { x with connections := x.connections ++ [c] })

def invalidate (x : ModuleContext) (id : ConnectionId) : ModuleContext :=
  match x.connection? id with
  | some c => x.setConnection id c.invalidate.2
  | none => x

/-- Looks after a connection. -/
def addConnection (x : ModuleContext) (id : ConnectionId) : ModuleContext :=
  { x with table := id :: x.table.filter (· ≠ id) }

/-- Makes a connection the router's; an earlier router connection is closed. -/
def attachRouter (x : ModuleContext) (id : ConnectionId) : ModuleContext :=
  let added := { x.addConnection id with router := some id }
  match x.router with
  | some old => { added with table := added.table.filter (· ≠ old) }.invalidate old
  | none => added

def detachAll (x : ModuleContext) (id : ConnectionId) : ModuleContext :=
  { x with messages := x.messages.map (·.detachAll id) }

def loseRouter (x : ModuleContext) : ModuleContext :=
  { x with router := none, routerLostTally := x.routerLostTally + x.routerLostHook.getD 0 }

/-- Tears down a connection whose other end is gone: false if the module does not look after it.
Losing the router runs the hook; a lost peer's handlers are detached. -/
def handleClosed (x : ModuleContext) (id : ConnectionId) : Bool × ModuleContext :=
  if id ∈ x.table then
    let closed := { x with table := x.table.filter (· ≠ id) }.invalidate id
    (true, if x.router = some id then closed.loseRouter else closed.detachAll id)
  else (false, x)

/-- Closes every connection in the table and drops queued traffic. -/
def shutdown (x : ModuleContext) : ModuleContext :=
  { x.table.foldl invalidate x with
    table := [], router := none, pendingReplies := [], inbound := [] }

/-- Takes the next message reference: never negative, and one after the largest. -/
def takeSendRef (x : ModuleContext) : Int32 × ModuleContext :=
  let next := if x.nextSendRef = 2147483647 then 1 else x.nextSendRef + 1
  (next, { x with nextSendRef := next })

def registerMessage (x : ModuleContext) (m : Message) : ModuleContext :=
  { x with messages := x.messages.register m }

def message? (x : ModuleContext) (name : String) : Option Message := x.messages.find? name

def setClassFormat (x : ModuleContext) (c : MessageClass) (f : Formatter) : ModuleContext :=
  { x with classFormat := fun d => if d = c then some f else x.classFormat d }

def takeInbound (x : ModuleContext) : Option (ConnectionId × Envelope) × ModuleContext :=
  match x.inbound with
  | [] => (none, x)
  | first :: rest => (some first, { x with inbound := rest })

/-- The connection of a handler while it can still be written to. -/
def liveConnection (x : ModuleContext) (h : Handler) : Option ConnectionId :=
  h.connection.filter x.isOpen

def requireMessage (name : String) : Act Message := do
  match (← get).message? name with
  | some m => return m
  | none => throw (.undefinedMessage name)

def requireRouter : Act ConnectionId := do
  match (← get).router with
  | some id => return id
  | none => throw .notConnected

def nextRef : Act Int32 := modifyGet takeSendRef

def addDirectHandler (name : String) (h : Handler) : Act Unit := do
  let _ ← requireMessage name
  modify fun x => { x with messages := x.messages.update name (·.addHandler h) }

/-! References. -/

def liveReferences (x : ModuleContext) : Nat := x.references.live

def createReference (x : ModuleContext) (message : Option Message) (name : Option String)
    (id : Int32) : Handle × ModuleContext :=
  let (h, references) := x.references.acquire { id, message, name }
  (h, { x with references })

/-- The reference through which a query is answered on the connection it came from. -/
def adoptQuery (x : ModuleContext) (query : Envelope) (source : ConnectionId) (name : String) :
    Handle × ModuleContext :=
  let (h, references) := x.references.acquire {
    id := query.messageRef
    message := x.message? name
    name := some name
    replyTo := some source
    response := if x.settings.detachedResponses then .detached else .pending }
  (h, { x with references })

def reference (h : Handle) : Act Reference := do
  match (← get).references.get h with
  | .ok r => return r
  | .error e => throw e

def editReference (h : Handle) (edit : Reference → Reference) : Act Unit := do
  match (← get).references.modify h edit with
  | .ok references => modify fun x => { x with references }
  | .error e => throw e

def freeReference (h : Handle) : Act Unit := do
  match (← get).references.release h with
  | .ok (_, references) => modify fun x => { x with references }
  | .error e => throw e

def detachResponse (h : Handle) : Act Unit := editReference h fun r => { r with response := .detached }

/-- The message that a reference is for; it is bound by name when it is first asked for. -/
def resolveMessage (h : Handle) : Act Message := do
  let r ← reference h
  match r.message, r.name with
  | some m, _ => return m
  | none, none => throw (.badReference r.id)
  | none, some name => do
    let m ← requireMessage name
    editReference h fun r => { r with message := some m }
    return m

/-- Sends an envelope on a connection; its write side is held for the whole envelope. -/
def sendOn (id : ConnectionId) (m : Envelope) : Act Unit := do
  let x ← get
  match x.connection? id with
  | none => return
  | some c =>
    let (result, c) := c.send m
    set (x.setConnection id c)
    match result with
    | .ok () => return
    | .error e => throw (.frame e)

end ModuleContext

end ModuleLink
