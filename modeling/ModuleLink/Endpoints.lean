import ModuleLink.PipeEndpoints
import ModuleLink.Polling
import ModuleLink.SocketEndpoints

/-! # Listening and connecting

A module listens to the network and, where it can, within its machine. Who connects to a module of
the same machine tries the channel within the machine first and the network after it. -/
namespace ModuleLink

inductive Channel
  | within (link : Link)
  | across (connection : Connection)

namespace Channel

def kind : Channel → ChannelKind
  | within l => l.kind
  | across c => c.kind

def peer : Channel → String
  | within l => l.peer
  | across c => c.peer

end Channel

namespace Machine

/-- The lowest port that is open to everybody. -/
def lowestPort : UInt16 := 1024

/-- Port zero stands for any free port. -/
def bindPort (port : UInt16) : MachineAct UInt16 := do
  let m ← get
  if port = 0 then
    set { m with freePort := m.freePort + 1 }
    return m.freePort
  else if port < lowestPort then throw (.bind s!"0.0.0.0:{port}" FileSystem.denied)
  else if m.listeners.any (·.port = some port) then
    throw (.bind s!"0.0.0.0:{port}" (.numbered 98))
  else return port

def bindEndpoint (port : UInt16) (s : EndpointSettings) : MachineAct Endpoint :=
  match s.transport with
  | .sockets => .socket <$> SocketEndpoint.bind port s
  | .pipes => .pipe <$> PipeEndpoint.bind port s

/-- A listener whose endpoint cannot be made listens to the network alone. -/
def listen (port : UInt16) (s : EndpointSettings) : MachineAct Nat := do
  let port ← bindPort port
  let endpoint ←
    if s.sameHost then
      tryCatch (some <$> bindEndpoint port s) fun _ => pure none
    else pure none
  addListener { port := some port, endpoint }

/-- Every turn uses up a byte that was read or written before. -/
def turns (m : Machine) (id : Nat) : Nat :=
  (m.unreadRequests id).length + ((m.pipeEndpoint? id).elim 0 (·.pending.length)) + 1

/-- What an attempt to accept took: nothing but the wait for a greeting takes any time. -/
def timeTaken (m : Machine) (id : Nat) : Except TransportError (Option Link) → Span
  | .error e => if e = notGreeted then (m.pipeEndpoint? id).elim .zero (·.handshake) else .zero
  | .ok _ => .zero

end Machine

/-- What happens around a listener in one turn of its loop. -/
structure ListenTurn where
  /-- What the reads of its pipe do. -/
  reads : List Turn := []
  /-- What others do while it waits for a greeting. -/
  greet : FileSystem → FileSystem := fun s => s
  /-- What the system answers while it sleeps with so much time left. -/
  polls : Machine → Option Span → List PollAnswer
  /-- What others do while it sleeps. -/
  others : FileSystem → FileSystem := fun s => s
  /-- The client who called from the network when that was ready. -/
  caller : Except TransportError Connection

/-- A turn in which the listener found nobody and went to sleep. -/
structure Sleep where
  turn : ListenTurn
  /-- The machine when the turn began. -/
  before : Machine
  /-- What came of the attempt to accept. -/
  attempt : Except TransportError (Option Link)
  /-- The machine when the listener went to sleep. -/
  asleep : Machine

/-- How a listener accepted: the result is missing while it goes on. -/
structure Acceptance where
  result : Option (Except TransportError (Option Channel))
  machine : Machine
  sleeps : List Sleep := []

/-- The client who was accepted, if one came over the pipes. -/
def Acceptance.link? (a : Acceptance) : Option Link :=
  match a.result with
  | some (.ok (some (.within link))) => some link
  | _ => none

namespace Machine

/-- Looks for one request a turn. If there is none, or it fails, the listener sleeps until the network
or the pipe can be read, whatever it has read already. It gives up when its time is over. -/
def acceptPipe (id : Nat) (deadline : Option Span) : List ListenTurn → Span → Machine → Acceptance
  | [], _, m => { result := none, machine := m }
  | turn :: turns, now, before =>
    match (tryAccept id turn.reads turn.greet).run before with
    | (.ok (some link), m) => { result := some (.ok (some (.within link))), machine := m }
    | (attempt, asleep) =>
      let now : Span := ⟨now.nanos + (asleep.timeTaken id attempt).nanos⟩
      let left := deadline.map fun d => (⟨d.nanos - now.nanos⟩ : Span)
      let wait := waitReadable deadline now (turn.polls asleep left)
      let machine := { asleep with files := turn.others asleep.files }
      let woken : Acceptance :=
        match wait.result with
        | none => { result := none, machine }
        | some (.error cause) => { result := some (.error (.io cause)), machine }
        | some (.ok none) => { result := some (.ok none), machine }
        | some (.ok (some 0)) =>
          { result := some (turn.caller.map fun c => some (.across c)), machine }
        | some (.ok (some _)) =>
          if deadline.any (·.nanos ≤ wait.now.nanos) then { result := some (.ok none), machine }
          else acceptPipe id deadline turns wait.now machine
      { woken with sleeps := ⟨turn, before, attempt, asleep⟩ :: woken.sleeps }

/-- A turn in which nobody else does anything: the listener is woken at once if its pipe holds
something, and otherwise sleeps to the end. -/
def quietTurn (id : Nat) : ListenTurn where
  polls m left :=
    if m.unreadRequests id ≠ [] then [.woken .zero [false, true]]
    else left.elim [] fun d => [.expired d]
  caller := .error (.accept (.bare .wouldBlock))

/-- The next client that is there, if one is within so much time. -/
def accept (id : Nat) (limit : Span) : StateM Machine (Option Link) := do
  let m ← get
  match (m.listener id).endpoint with
  | none => return none
  | some (.socket e) => e.accept
  | some (.pipe e) =>
    if e.offered.isSome then return ((← (takeOffered id).run).toOption).join
    else
      let accepted := acceptPipe id (some limit) (List.replicate (m.turns id) (quietTurn id)) .zero m
      set accepted.machine
      return accepted.link?

def closeListener (id : Nat) : StateM Machine Unit := do
  match ((← get).listener id).endpoint with
  | none => pure ()
  | some (.socket e) => e.close
  | some (.pipe e) => e.close
  modify fun m => { m with listeners := m.listeners.modify id fun _ => {} }

/-- The machine after a listener is closed. -/
def without (m : Machine) (id : Nat) : Machine := ((closeListener id).run m).2

def connectWithin (port : UInt16) (s : EndpointSettings) (meanwhile : StateM Machine Unit) :
    MachineAct Channel :=
  match s.transport with
  | .sockets => .within <$> connectSocket port s
  | .pipes => .within <$> connectPipes port s meanwhile

def connectAcross (t : Target) : MachineAct Channel := do
  .across <$> MonadExcept.ofExcept ((← get).network.connect t)

def connect (t : Target) (s : EndpointSettings) (meanwhile : StateM Machine Unit) :
    MachineAct Channel := do
  if s.sameHost && isLocalHost t.host (s.hostName.getD (← get).name) then
    tryCatch (connectWithin t.port s meanwhile) fun _ => connectAcross t
  else connectAcross t

end Machine

end ModuleLink
