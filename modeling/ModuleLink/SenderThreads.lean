import ModuleLink.Delivery

/-! # Several threads that send

Between two steps of one thread others may write to the same connections and tear them down. -/
namespace ModuleLink

/-- Where a sending thread stands. -/
inductive SendPhase
  | prepare (request : SendRequest)
  | route (out : ModuleContext.Outgoing)
  /-- The handlers that are still to be served. -/
  | visit (out : ModuleContext.Outgoing) (handlers : List Handler)
  /-- The connection of this handler could be written to a moment ago. -/
  | write (out : ModuleContext.Outgoing) (id : ConnectionId) (intent : Int32)
      (handlers : List Handler)
  /-- The write found the other end gone. -/
  | tearDown (out : ModuleContext.Outgoing) (id : ConnectionId) (cause : PeerError)
      (handlers : List Handler)
  | done (result : Except PeerError Int32)

namespace SendPhase

def step (phase : SendPhase) (x : ModuleContext) : SendPhase × ModuleContext :=
  match phase with
  | prepare q =>
    match (ModuleContext.prepareMessage q).run.run x with
    | (.error e, y) => (done (.error e), y)
    | (.ok out, y) =>
      (if out.message.deliversDirectly then visit out out.message.handlers.reverse else route out, y)
  | route out =>
    match (ModuleContext.sendOn out.router (out.envelope.withIntent out.message.id)).run.run x with
    | (.error e, y) => (done (.error e), y)
    | (.ok (), y) => (done (.ok out.messageRef), y)
  | visit out [] => (done (.ok out.messageRef), x)
  | visit out (h :: hs) =>
    match x.liveConnection h with
    | none => (visit out hs, x)
    | some id => (write out id h.intent hs, x)
  | write out id intent hs =>
    match (ModuleContext.sendOn id (out.envelope.withIntent intent)).run.run x with
    | (.ok (), y) => (visit out hs, y)
    | (.error e, y) => (if e.isBrokenPipe then tearDown out id e hs else done (.error e), y)
  | tearDown out id cause hs =>
    let (tornDown, y) := x.handleClosed id
    (if tornDown then visit out hs else done (.error cause), y)
  | done r => (done r, x)

end SendPhase

/-- Threads that send through one module. -/
structure Senders where
  context : ModuleContext
  threads : List SendPhase

namespace Senders

def step (s : Senders) (i : Nat) : Senders :=
  match s.threads[i]? with
  | some phase =>
    let (phase, context) := phase.step s.context
    ⟨context, s.threads.set i phase⟩
  | none => s

def run (s : Senders) (schedule : List Nat) : Senders := schedule.foldl step s

end Senders

end ModuleLink
