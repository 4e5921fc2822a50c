import ModuleLink.Delivery

/-! # Waiting for a reply

A module reads its router connection until the reply it waits for has come. Replies to other
queries are kept for whoever waits for them and all other envelopes for later, both in the order
of arrival. A deadline in the middle of an envelope costs the router connection, because what
follows could not be understood any more. -/
namespace ModuleLink

/-- An attempt to receive: what came, and how many bytes were read for it. -/
structure Reception where
  result : Except FrameError Envelope
  consumed : Nat

def isReplyTo (messageRef : Int32) (m : Envelope) : Bool :=
  m.intent = queryReplyIntent ∧ m.messageRef = messageRef

namespace Connection

/-- Receives on a connection, into the caller's buffer where it fits. -/
def receiveReply (c : Connection) (limits : Limits) :
    Option ReplyBuffer → Reception × Option ReplyBuffer × Connection
  | none =>
    let (result, t) := ModuleLink.receive c.incoming limits
    (⟨result, c.incoming.unread.length - t.unread.length⟩, none, { c with incoming := t })
  | some b =>
    let (result, b, t) := receiveWithReply c.incoming limits b
    (⟨result, c.incoming.unread.length - t.unread.length⟩, some b, { c with incoming := t })

theorem receiveReply_work_lt {c d : Connection} {limits : Limits} {b b' : Option ReplyBuffer}
    {m : Envelope} {r : Reception} (h : c.receiveReply limits b = (r, b', d)) (hr : r.result = .ok m) :
    d.incoming.work < c.incoming.work := by
  cases b with
  | none =>
    simp only [receiveReply, Prod.mk.injEq] at h
    obtain ⟨rfl, -, rfl⟩ := h
    exact receive_work_lt (Prod.ext hr rfl)
  | some b =>
    simp only [receiveReply, Prod.mk.injEq] at h
    obtain ⟨rfl, -, rfl⟩ := h
    exact receiveWithReply_work_lt (c := (receiveWithReply c.incoming limits b).2.1) (Prod.ext hr rfl)

/-- Envelopes that were passed over, and the attempt that ended the search. -/
structure Search where
  passed : List Envelope
  last : Reception
  buffer : Option ReplyBuffer
  connection : Connection

/-- Receives up to and including the reply under a message reference, or until an attempt fails. -/
def search (c : Connection) (limits : Limits) (messageRef : Int32) (buffer : Option ReplyBuffer) :
    Search :=
  match _ : c.receiveReply limits buffer with
  | (r, buffer, d) =>
    match _ : r.result with
    | .error _ => ⟨[], r, buffer, d⟩
    | .ok m =>
      if isReplyTo messageRef m then ⟨[], r, buffer, d⟩
      else
        let rest := d.search limits messageRef buffer
        { rest with passed := m :: rest.passed }
termination_by c.incoming.work
decreasing_by exact receiveReply_work_lt ‹_› ‹_›

end Connection

/-- An empty reply is reported as an error. -/
def finishReply (m : Envelope) : Except PeerError Envelope :=
  if m.hasPayload then .ok m else .error .nullReply

namespace ModuleContext

/-- Takes the reply that has waited the longest under a message reference. -/
def takePending (x : ModuleContext) (messageRef : Int32) : Option Envelope × ModuleContext :=
  match x.pendingReplies.findIdx? (·.messageRef = messageRef) with
  | none => (none, x)
  | some i => (x.pendingReplies[i]?, { x with pendingReplies := x.pendingReplies.eraseIdx i })

/-- Keeps an envelope that nobody waits for here: a reply for its own waiter, others for later. -/
def setAside (router : ConnectionId) (x : ModuleContext) (m : Envelope) : ModuleContext :=
  if m.intent = queryReplyIntent then { x with pendingReplies := x.pendingReplies ++ [m] }
  else { x with inbound := x.inbound ++ [(router, m)] }

def waitedFor (timeout : Option Span) : PeerError := .timeout (timeout.getD .zero)

/-- What a failed attempt to receive means: the router connection is lost with its other end, and
when time runs out after part of an envelope was read. -/
def failReception (x : ModuleContext) (router : ConnectionId) (timeout : Option Span)
    (e : FrameError) (consumed : Nat) : PeerError × ModuleContext :=
  if e.isTimeout then
    (waitedFor timeout, if 0 < consumed then (x.handleClosed router).2 else x)
  else (.frame e, if e.isDisconnect then (x.handleClosed router).2 else x)

/-- How a wait ended: its result and the caller's buffer. -/
structure Waited where
  result : Except PeerError Envelope
  buffer : Option ReplyBuffer

/-- Reads the router connection for a reply that is not pending. -/
def readReply (x : ModuleContext) (router : ConnectionId) (c : Connection) (messageRef : Int32)
    (timeout : Option Span) (buffer : Option ReplyBuffer) : Waited × ModuleContext :=
  let s := c.search x.settings.limits messageRef buffer
  let y := s.passed.foldl (setAside router) (x.setConnection router s.connection)
  match s.last.result with
  | .ok m => (⟨finishReply m, s.buffer⟩, y)
  | .error e =>
    let (e, y) := y.failReception router timeout e s.last.consumed
    (⟨.error e, s.buffer⟩, y)

/-- Waits for the reply under a message reference with nobody else reading in the meantime. A wait
that finds the read side held, or nothing more to read, uses up the time that it has. -/
def waitInto (x : ModuleContext) (messageRef : Int32) (timeout : Option Span)
    (buffer : Option ReplyBuffer) : Waited × ModuleContext :=
  match x.takePending messageRef with
  | (some m, y) => (⟨finishReply m, buffer⟩, y)
  | (none, _) =>
    let fail (e : PeerError) : Waited × ModuleContext := (⟨.error e, buffer⟩, x)
    match x.router with
    | none => fail .notConnected
    | some router =>
      match x.connection? router with
      | none => fail .notConnected
      | some c =>
        if timeout = some .zero then fail (waitedFor timeout)
        else
          match c.tryReader with
          | .error e => fail (.transport e)
          | .ok false => fail (waitedFor timeout)
          | .ok true => x.readReply router c messageRef timeout buffer

def waitForReply (messageRef : Int32) (timeout : Option Span) : Act Envelope := do
  let waited ← modifyGet fun x => x.waitInto messageRef timeout none
  match waited.result with
  | .ok m => return m
  | .error e => throw e

/-- Sends a query and waits for its reply. -/
def query (q : SendRequest) (timeout : Option Span) : Act Envelope := do
  let messageRef ← nextRef
  let _ ← sendMessage { q with messageRef := some messageRef }
  waitForReply messageRef timeout

end ModuleContext

end ModuleLink
