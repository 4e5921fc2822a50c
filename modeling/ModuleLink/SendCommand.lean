import ModuleLink.EnvelopeReports
import ModuleLink.Endpoints
import ModuleLink.ExitReports

/-! # Sending one envelope -/
namespace ModuleLink

/-- How a run of the program ended. -/
structure Finished where
  code : UInt32 := 0
  output : Bytes := []
  error : Option String := none
  deriving DecidableEq, Repr

def ExitReport.finished (r : ExitReport) (output : Bytes := []) : Finished :=
  ⟨r.code, output, some r.message⟩

/-- Reads all of a file. -/
def FileSystem.readWhole (s : FileSystem) (path : Path) : Except SystemError Bytes := do
  let (_, node) ← s.find path
  if !node.allows .read then throw denied
  match node with
  | .regular content | .pipe _ content => return content
  | .directory _ | .sealedDirectory .. => throw isDirectory
  | .socket .. => throw .noReader

def LocalOptions.settings (o : LocalOptions) : EndpointSettings :=
  let s : EndpointSettings := { sameHost := !o.networkOnly
                                transport := if o.pipes then .pipes else .sockets }
  match o.directory with
  | none => s
  | some directory => { s with directory := directory.toList }

/-- Length of time in seconds, or in milliseconds where the unit says so. -/
def waitTimeout? (text : String) : Except ExitReport Span := do
  let wrong (message : String) : ExitReport := ⟨ExitReport.usage, message⟩
  let cs := trim text.toList
  if cs = [] then throw (wrong "duration must not be empty")
  let (digits, millis) :=
    if "ms".toList.isSuffixOf cs then (cs.take (cs.length - 2), true)
    else if cs.getLast? = some 's' then (cs.dropLast, false)
    else (cs, false)
  match natural? 18446744073709551615 digits with
  | none => throw (wrong ("invalid duration value: " ++ String.ofList cs))
  | some 0 => throw (wrong "duration must be greater than zero")
  | some n => return if millis then .ofMillis n else .ofSeconds n

/-- What is to be sent and where. -/
structure Dispatch where
  target : Target
  envelope : Envelope
  view : PayloadView
  settings : EndpointSettings
  wait : Option Span

namespace SendOptions

def view (o : SendOptions) : PayloadView :=
  match o.payload with
  | .integers _ => .integers
  | _ => .text

def content (read : Path → Except SystemError Bytes) (o : SendOptions) :
    Except ExitReport (Option Content) :=
  match o.payload with
  | .absent => .ok none
  | .text value => .ok (some ⟨.raw, textBytes value⟩)
  | .integers values => .ok (some ⟨.int32Array, values.flatMap fun n => littleEndian n.toUInt32⟩)
  | .file path =>
    match read path.toList with
    | .ok bytes => .ok (some ⟨.raw, bytes⟩)
    | .error cause => .error (.ofSystemError s!"failed reading {path}" cause)

def draft (o : SendOptions) (payload : Option Content) : Draft where
  classId := o.classId
  intent := o.intent
  messageRef := o.messageRef.getD 1
  dispatchRef := o.dispatchRef.getD noRef
  classData := o.classData.map fun value => ⟨.text, textBytes value⟩
  payload

/-- Everything that can be found wrong before connecting, the time to wait first. -/
def dispatch (read : Path → Except SystemError Bytes) (o : SendOptions) :
    Except ExitReport Dispatch := do
  let wait ← waitTimeout? o.waitTimeout
  let target ← (Target.parse o.target).mapError fun e => ⟨ExitReport.usage, e.message⟩
  let envelope ← ((o.draft (← o.content read)).build).mapError (.ofFrameError "encode failed")
  return { target, envelope, view := o.view, settings := o.within.settings
           wait := if o.waits then some wait else none }

end SendOptions

namespace Dispatch

/-- Sends the envelope and prints the one that comes back, if it is waited for. -/
def converse (d : Dispatch) (c : Connection) (format : ReportFormat) (now : Nat) : Finished :=
  match c.send d.envelope with
  | (.error e, _) => (ExitReport.ofFrameError "send failed" e).finished
  | (.ok (), c) =>
    if d.wait.isNone then {}
    else
      match (c.receive {}).1 with
      | .error e => (ExitReport.ofFrameError "receive failed" e).finished
      | .ok m => { output := m.report c.peer d.view now format }

end Dispatch

/-- The connection that a channel stands for at this moment. -/
def Channel.connection (files : FileSystem) : Channel → Connection
  | .across c => c
  | .within l =>
    { name := l.peer, kind := l.kind, peer := l.peer
      incoming := files.source l.reader, outgoing := files.sink l.writer }

def SendOptions.run (o : SendOptions) (format : ReportFormat) (now : Nat) :
    StateM Machine Finished := do
  match o.dispatch (← get).files.readWhole with
  | .error r => return r.finished
  | .ok d =>
    match ← (Machine.connect d.target d.settings (pure ())).run with
    | .error e => return (ExitReport.ofTransportError "connect failed" e).finished
    | .ok channel => return d.converse (channel.connection (← get).files) format now

end ModuleLink
