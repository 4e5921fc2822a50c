import ModuleLink.Networks
import ModuleLink.OpenFiles
import ModuleLink.Spans

/-! # Machines

A machine has files, a name, a way to the network and the listeners of its modules. -/
namespace ModuleLink

inductive LocalTransport | sockets | pipes
  deriving DecidableEq, Repr

/-- How modules of one machine find each other. -/
structure EndpointSettings where
  directory : Path := "/tmp/ipclink".toList
  directoryMode : Nat := 0o1777
  socketMode : Nat := 0o777
  transport : LocalTransport := .sockets
  /-- Use a channel within the machine where there can be one. -/
  sameHost : Bool := true
  /-- The name by which the machine knows itself, if it is not its own. -/
  hostName : Option String := none
  /-- How long either side of a pair of pipes waits for the other. -/
  handshake : Span := .ofSeconds 5

structure SocketEndpoint where
  path : Path
  node : Nat
  deriving DecidableEq, Repr

structure PipeEndpoint where
  path : Path
  directory : Path
  file : Nat
  handshake : Span
  /-- Bytes read from the pipe that belong to no request yet. -/
  pending : Bytes := []
  /-- A channel that was offered to a client who has not greeted yet. -/
  offered : Option Link := none
  deriving DecidableEq, Repr

inductive Endpoint
  | socket (e : SocketEndpoint)
  | pipe (e : PipeEndpoint)
  deriving DecidableEq, Repr

def Endpoint.path : Endpoint → Path
  | socket e => e.path
  | pipe e => e.path

structure Listener where
  /-- Where it listens to the network. -/
  port : Option UInt16 := none
  endpoint : Option Endpoint := none
  deriving DecidableEq, Repr

structure Machine where
  name : String
  files : FileSystem := {}
  network : Network := .isolated
  listeners : List Listener := []
  /-- The port given to the next listener that names none. -/
  freePort : UInt16 := 40001
  process : Nat := 1
  /-- How many pairs of pipes were named so far. -/
  pairs : Nat := 0

/-- What a machine did before an error stays done. -/
abbrev MachineAct := ExceptT TransportError (StateM Machine)

namespace Machine

def onFiles {α : Type} (wrap : SystemError → TransportError)
    (f : FileSystem → Except SystemError (α × FileSystem)) : MachineAct α := do
  let m ← get
  match f m.files with
  | .error cause => throw (wrap cause)
  | .ok (a, files) =>
    set { m with files }
    return a

def updateFiles (f : FileSystem → FileSystem) : StateM Machine Unit :=
  modify fun m => { m with files := f m.files }

def require (r : Except TransportError Unit) : MachineAct Unit := MonadExcept.ofExcept r

/-- Undoes something if what follows fails. -/
def orUndo {α : Type} (undo : FileSystem → FileSystem) (act : MachineAct α) : MachineAct α :=
  tryCatch act fun e => do
    updateFiles undo
    throw e

def addListener (l : Listener) : StateM Machine Nat :=
  modifyGet fun m => (m.listeners.length, { m with listeners := m.listeners ++ [l] })

def listener (m : Machine) (id : Nat) : Listener := (m.listeners[id]?).getD {}

def setEndpoint (id : Nat) (e : Endpoint) : StateM Machine Unit :=
  modify fun m =>
    { m with listeners := m.listeners.modify id fun l => { l with endpoint := some e } }

end Machine

end ModuleLink
