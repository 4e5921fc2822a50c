import ModuleLink.Machines
import ModuleLink.PipeRequests
import ModuleLink.RequestQueues

/-! # Endpoints that are pipes

A client makes two pipes and writes their names to the endpoint. The listener opens both and
writes one byte; the client answers with one byte. Then both sides hold a channel, and the names
are removed. -/
namespace ModuleLink

open Machine

/-- A null character is found where the name of a pipe is turned into bytes. -/
def FileSystem.makePipe (s : FileSystem) (path : Path) (mode : Nat) :
    Except SystemError (Nat × FileSystem) :=
  match path.null? with
  | some n =>
    .error (.described .invalidInput s!"nul byte found in provided data at position: {n}")
  | none => s.make path (.pipe mode [])

/-- The byte with which each side greets the other. -/
def greeting : UInt8 := 6

def notGreeted : TransportError := .connect "pipe handshake" (.bare .timedOut)

/-- Takes the other side's greeting, whatever byte it is. -/
def awaitGreeting (file : Nat) : MachineAct Unit := do
  let files := (← get).files
  match files.opened? file with
  | some (_, .pipe _ []) => throw notGreeted
  | some (_, .directory _) | some (_, .sealedDirectory ..) => throw (.io FileSystem.isDirectory)
  | _ =>
    let (filled, files) := files.readExact file 1
    modify ({ · with files })
    require filled.result

def sendGreeting (wrap : SystemError → TransportError) (file : Nat) : MachineAct Unit := do
  let (result, files) := (← get).files.writeAll file [greeting]
  modify ({ · with files })
  match result with
  | .ok () => pure ()
  | .error _ => throw (wrap (.numbered 32))

namespace PipeEndpoint

/-- A pipe that is left over is used again; anything else at the path is left alone. -/
def bind (port : UInt16) (s : EndpointSettings) : MachineAct PipeEndpoint := do
  updateFiles (·.ensureDirectory s.directory s.directoryMode)
  let path := requestPipePath s.directory port
  require path.checkSize
  match (← get).files.find path with
  | .ok (_, node) =>
    if !node.isPipe then
      throw (.bind path.text (.described .alreadyExists "existing path is not a fifo"))
  | .error _ => discard (onFiles (.bind path.text) (·.makePipe path 0o622))
  let file ← onFiles (.bind path.text) (·.openFile path true true)
  return { path, directory := s.directory, file, handshake := s.handshake }

/-- What there is to be read of requests, and what the next reads do; they do not wait. -/
def unreadSource (e : PipeEndpoint) (reads : List Turn) (files : FileSystem) : Source :=
  { files.source e.file with turns := reads, exhaustion := .ended }

/-- The next request and the endpoint without it. -/
def takeRequest (e : PipeEndpoint) (reads : List Turn) :
    StateM Machine (Except TransportError (Option PipeRequest) × PipeEndpoint) := do
  let files := (← get).files
  let taken := nextRequest e.pending (e.unreadSource reads files)
  modify ({ · with files := files.leaveUnread e.file taken.pipe.unread })
  let request := do
    match ← taken.result with
    | none => return none
    | some line => return some (← PipeRequest.parse e.directory line)
  return (request, { e with pending := taken.pending })

/-- Opens what the client named and greets. -/
def offer (r : PipeRequest) : MachineAct Link := do
  let reader ← onFiles .accept (·.openFile r.up true false)
  orUndo (·.close reader) do
    let writer ← onFiles .accept (·.openFile r.down false true)
    orUndo (·.close writer) do
      sendGreeting .accept writer
      return { kind := .pipe, peer := "pipe://" ++ r.up.text, reader, writer }

def close (e : PipeEndpoint) : StateM Machine Unit :=
  updateFiles fun s => (s.close e.file).discard e.path

end PipeEndpoint

namespace Machine

def pipeEndpoint? (m : Machine) (id : Nat) : Option PipeEndpoint :=
  match (m.listener id).endpoint with
  | some (.pipe e) => some e
  | _ => none

/-- Answers the next request of a listener, if there is one. -/
def offerNext (id : Nat) (reads : List Turn := []) : MachineAct Unit := do
  let some e := (← get).pipeEndpoint? id | return
  let (request, e) ← e.takeRequest reads
  setEndpoint id (.pipe e)
  match request with
  | .error error => throw error
  | .ok none => return
  | .ok (some r) =>
    let link ← PipeEndpoint.offer r
    setEndpoint id (.pipe { e with offered := some link })

/-- The channel that was offered last, once its client has greeted. -/
def takeOffered (id : Nat) : MachineAct (Option Link) := do
  let some e := (← get).pipeEndpoint? id | return none
  let some link := e.offered | return none
  setEndpoint id (.pipe { e with offered := none })
  orUndo link.close do
    awaitGreeting link.reader
    return some link

/-- One attempt to accept a client; none if nobody asked. Others act while the listener waits for a
greeting. -/
def tryAccept (id : Nat) (reads : List Turn := []) (greet : FileSystem → FileSystem := fun s => s) :
    MachineAct (Option Link) := do
  offerNext id reads
  updateFiles greet
  takeOffered id

/-- Bytes of requests that were written and not read. -/
def unreadRequests (m : Machine) (id : Nat) : Bytes :=
  match m.pipeEndpoint? id with
  | some e => (m.files.source e.file).unread
  | none => []

end Machine

/-- A client who has asked and waits for an answer. -/
structure Asking where
  endpoint : Path
  request : PipeRequest
  reader : Nat

namespace Asking

def removeNames (r : PipeRequest) (s : FileSystem) : FileSystem := (s.discard r.up).discard r.down

def start (port : UInt16) (s : EndpointSettings) : MachineAct Asking := do
  let endpoint := requestPipePath s.directory port
  let m ← get
  set { m with pairs := m.pairs + 1 }
  let up := pairPath s.directory port m.process m.pairs "up"
  let down := pairPath s.directory port m.process m.pairs "down"
  require up.checkSize
  require down.checkSize
  let failing := TransportError.connect endpoint.text
  discard (onFiles failing (·.makePipe up 0o600))
  orUndo (removeNames ⟨up, down⟩) do
    discard (onFiles failing (·.makePipe down 0o600))
    let reader ← onFiles failing (·.openFile down true false)
    orUndo (·.close reader) do
      let ask ← onFiles failing (·.openFile endpoint false true)
      let (result, files) := (← get).files.writeAll ask (PipeRequest.line ⟨up, down⟩)
      modify ({ · with files := files.close ask })
      require result
      return ⟨endpoint, ⟨up, down⟩, reader⟩

def finish (a : Asking) : MachineAct Link := do
  let link ← orUndo (fun s => removeNames a.request (s.close a.reader)) do
    awaitGreeting a.reader
    let writer ← onFiles (.connect a.endpoint.text) (·.openFile a.request.up false true)
    orUndo (·.close writer) do
      sendGreeting (.connect a.endpoint.text) writer
      return { kind := .pipe, peer := "pipe://" ++ a.endpoint.text, reader := a.reader, writer }
  updateFiles (removeNames a.request)
  return link

end Asking

/-- Asks for a channel; `meanwhile` is what others do until the answer is due. -/
def connectPipes (port : UInt16) (s : EndpointSettings) (meanwhile : StateM Machine Unit) :
    MachineAct Link := do
  let asking ← Asking.start port s
  meanwhile
  asking.finish

end ModuleLink
