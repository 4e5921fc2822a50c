import ModuleLink.Machines

/-! # Endpoints that are sockets -/
namespace ModuleLink

def addressInUse : SystemError := .numbered 98
def refusedConnection : SystemError := .numbered 111

def nullInSocketPath : SystemError :=
  .described .invalidInput "paths must not contain interior null bytes"

/-- Binds a socket that somebody listens on. -/
def FileSystem.makeSocket (s : FileSystem) (path : Path) (mode : Nat) :
    Except SystemError (Nat × FileSystem) :=
  if path.null?.isSome then .error nullInSocketPath
  else
    match s.make path (FileNode.socket 0 (some [])) with
    | .error e => .error (if e = FileSystem.alreadyExists then addressInUse else e)
    | .ok (n, s) => .ok (n, s.setNode n ((FileNode.socket 0 (some [])).withMode mode))

namespace SocketEndpoint

open Machine

/-- A socket that is left over is replaced; anything else at the path is left alone. -/
def bindAt (path : Path) (mode : Nat) : MachineAct SocketEndpoint := do
  require path.checkSize
  match (← get).files.find path with
  | .ok (_, node) =>
    if node.isSocket then updateFiles (·.discard path)
    else throw (.bind path.text (.described .alreadyExists "existing path is not a unix socket"))
  | .error _ => pure ()
  let node ← onFiles (.bind path.text) (·.makeSocket path mode)
  return { path, node }

def bind (port : UInt16) (s : EndpointSettings) : MachineAct SocketEndpoint := do
  updateFiles (·.ensureDirectory s.directory s.directoryMode)
  bindAt (socketPath s.directory port) s.socketMode

/-- Takes the link that has waited longest, under the name that the endpoint gives it. -/
def accept (e : SocketEndpoint) : StateM Machine (Option Link) := do
  match (← get).files.nodes[e.node]? with
  | some (.socket mode (some (link :: waiting))) =>
    updateFiles (·.setNode e.node (.socket mode (some waiting)))
    return some { link with peer := "unix://" ++ e.path.text }
  | _ => return none

/-- The path is removed only while it still leads to this socket. -/
def close (e : SocketEndpoint) : StateM Machine Unit :=
  updateFiles fun s =>
    let s : FileSystem := match s.find e.path with
      | .ok (n, _) => if n = e.node then s.discard e.path else s
      | .error _ => s
    match s.nodes[e.node]? with
    | some (.socket mode waiting) =>
      (waiting.getD []).foldl (fun s link => link.close s) (s.setNode e.node (.socket mode none))
    | _ => s

end SocketEndpoint

/-- A pair of streams, each written at one end and read at the other. -/
def FileSystem.linkPair (s : FileSystem) (kind : ChannelKind) (peer : String) :
    (Link × Link) × FileSystem :=
  let (there, s) := s.addNode (.pipe 0 [])
  let (back, s) := s.addNode (.pipe 0 [])
  let (r₁, s) := s.openNode back true false
  let (w₁, s) := s.openNode there false true
  let (r₂, s) := s.openNode there true false
  let (w₂, s) := s.openNode back false true
  ((⟨kind, peer, r₁, w₁⟩, ⟨kind, peer, r₂, w₂⟩), s)

def connectSocket (port : UInt16) (s : EndpointSettings) : MachineAct Link := do
  let path := socketPath s.directory port
  Machine.require path.checkSize
  Machine.onFiles (.connect path.text) fun files => do
    if path.null?.isSome then throw nullInSocketPath
    let (n, node) ← files.find path
    if !node.allows .write then throw FileSystem.denied
    match node with
    | .socket mode (some waiting) =>
      let ((ours, theirs), files) := files.linkPair .unix ("unix://" ++ path.text)
      return (ours, files.setNode n (.socket mode (some (waiting ++ [theirs]))))
    | _ => throw refusedConnection

end ModuleLink
