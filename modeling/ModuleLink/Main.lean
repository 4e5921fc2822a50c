import ModuleLink.Program
import Std.Async.DNS
import Std.Async.System
import Std.Async.TCP

/-! # The command line program

Takes a picture of the machine it runs on, lets the program decide, and moves bytes over the
network. -/
namespace ModuleLink

open Std.Async.TCP.Socket (Client Server)

def causeOf : IO.Error → SystemError
  | .alreadyExists _ n _ | .otherError n _ | .resourceBusy n _ | .resourceVanished n _
  | .unsupportedOperation n _ | .hardwareFault n _ | .unsatisfiedConstraints n _
  | .illegalOperation n _ | .protocolError n _ | .timeExpired n _ | .interrupted _ n _
  | .noFileOrDirectory _ n _ | .invalidArgument _ n _ | .permissionDenied _ n _
  | .resourceExhausted _ n _ | .inappropriateType _ n _ | .noSuchThing _ n _ =>
    .numbered n.toInt32.toInt.natAbs
  | .unexpectedEof => .bare .unexpectedEof
  | .userError text => .described .other text

/-- What an action yields, or why it failed. -/
def attempt {α : Type} (act : IO α) : IO (Except SystemError α) := do
  match ← act.toBaseIO with
  | .ok a => return .ok a
  | .error e => return .error (causeOf e)

def bytesOf (data : ByteArray) : Bytes := data.toList

def arrayOf (bytes : Bytes) : ByteArray := ⟨bytes.toArray⟩

/-- The files that the program looks at, as they are now. -/
def picture (paths : List String) : IO FileSystem := do
  let mut files : FileSystem := ({} : FileSystem).furnish "/tmp".toList (.directory 0o1777)
  for path in paths do
    match ← attempt (IO.FS.readBinFile path) with
    | .ok content => files := files.furnish path.toList (.regular (bytesOf content))
    | .error cause =>
      if cause.kind = .isADirectory then files := files.furnish path.toList (.directory 0o755)
  return files

def addressOf (a : InternetAddress) : Std.Net.SocketAddress :=
  match a.host with
  | .bytes parts =>
    let part (i : Nat) : UInt8 := .ofNat (parts.getD i 0)
    .v4 ⟨.ofParts (part 0) (part 1) (part 2) (part 3), a.port⟩
  | .groups parts _ =>
    let part (i : Nat) : UInt16 := .ofNat (parts.getD i 0)
    .v6 ⟨.ofParts (part 0) (part 1) (part 2) (part 3) (part 4) (part 5) (part 6) (part 7), a.port⟩

/-- The first address of four bytes that a host has, or else its first one. -/
def lookUp (host : String) : IO (Option HostAddress) := do
  match ← attempt (Std.Async.DNS.getAddrInfo host "" none).block with
  | .ok addresses =>
    let all := addresses.toList
    let bytes := all.findSome? fun
      | .v4 a => some (.bytes (a.octets.toList.map (·.toNat)))
      | .v6 _ => none
    return bytes <|> all.head?.map fun
      | .v4 a => .bytes (a.octets.toList.map (·.toNat))
      | .v6 a => .groups (a.segments.toList.map (·.toNat)) 0
  | .error _ => return none

/-- Connects to a target, and what the network then looks like to the program. -/
def reach (t : Target) : IO (Option Client × Network) := do
  let known ← lookUp t.host
  match resolve (fun _ => known) t.host t.port with
  | .error _ => return (none, ⟨fun _ => known, fun _ => some .unreachable⟩)
  | .ok address =>
    let client ← Client.mk
    match ← attempt (client.connect (addressOf address)).block with
    | .ok () => return (some client, ⟨fun _ => known, fun _ => none⟩)
    | .error cause => return (none, ⟨fun _ => known, fun _ => some cause⟩)

/-- Reads until one envelope is complete, the peer closes or the deadline passes. -/
partial def gather (client : Client) (deadline : Nat) (unread : Bytes) : IO Source := do
  let silent : Source := { unread, exhaustion := .silent }
  match (receive silent {}).1 with
  | .error e =>
    if !e.isTimeout || deadline ≤ (← IO.monoMsNow) then return silent
    let data ← attempt (client.recv? 65536).block
    match data with
    | .ok (some data) => gather client deadline (unread ++ bytesOf data)
    | .ok none => return { unread }
    | .error cause => return { unread, turns := [.move unread.length, .fail cause] }
  | .ok _ => return silent

def finish (r : Finished) : IO UInt32 := do
  let out ← IO.getStdout
  out.write (arrayOf r.output)
  out.flush
  if let some text := r.error then IO.eprintln ("error: " ++ text)
  return r.code

def runSend (o : SendOptions) (m : Machine) (format : ReportFormat) (now : Nat) : IO UInt32 := do
  match o.dispatch m.files.readWhole with
  | .error r => finish r.finished
  | .ok d =>
    let (client, network) ← reach d.target
    match client, network.connect d.target with
    | some client, .ok c =>
      match ← attempt (client.send (arrayOf (d.envelope.send {}).2.written)).block with
      | .error cause => finish (ExitReport.ofSystemError "send failed" cause).finished
      | .ok () =>
        let incoming ← match d.wait with
          | none => pure c.incoming
          | some wait => gather client ((← IO.monoMsNow) + wait.ceilMillis) []
        finish (d.converse { c with incoming } format now)
    | _, .error e => finish (ExitReport.ofTransportError "connect failed" e).finished
    | none, .ok _ => finish { code := ExitReport.internal }

/-- Prints what one peer sends; the answer is how many were printed so far, or why to stop. -/
partial def hearPeer (o : ListenOptions) (client : Client) (peer : String) (format : ReportFormat)
    (unread : Bytes) (printed : Nat) : IO (Except Finished Nat) := do
  match receive { unread, exhaustion := .silent } {} with
  | (.ok m, rest) =>
    let handled := o.handle printed m
    if handled.prints then
      let now ← Std.Time.Timestamp.now
      let _ ← finish { output := m.report peer o.view now.toSecondsSinceUnixEpoch.val.toNat format }
    if handled.enough then return .error {}
    hearPeer o client peer format rest.unread handled.printed
  | (.error e, _) =>
    if !e.isTimeout then return .error (ExitReport.ofFrameError "receive failed" e).finished
    match ← attempt (client.recv? 65536).block with
    | .ok (some data) => hearPeer o client peer format (unread ++ bytesOf data) printed
    | .ok none => return .ok printed
    | .error cause => return .error (ExitReport.ofSystemError "receive failed" cause).finished

partial def serve (o : ListenOptions) (server : Server) (format : ReportFormat) (printed : Nat) :
    IO UInt32 := do
  match ← attempt server.accept.block with
  | .error cause => finish (ExitReport.ofSystemError "accept failed" cause).finished
  | .ok client =>
    let name ← attempt client.getPeerName
    let peer := match name with
      | .ok (.v4 a) => s!"tcp://{a.addr}:{a.port}"
      | _ => "tcp://"
    match ← hearPeer o client peer format [] printed with
    | .ok printed => serve o server format printed
    | .error r => finish r

def runListen (o : ListenOptions) (format : ReportFormat) : IO UInt32 := do
  let server ← Server.mk
  let bound ← attempt do
    server.bind (.v4 ⟨.ofParts 0 0 0 0, o.port⟩)
    server.listen 5
  match bound with
  | .error cause => finish (ExitReport.ofSystemError "bind failed" cause).finished
  | .ok () => serve o server format 0

/-- The files a command names or needs. -/
def named (environment : Environment) : Command → List String
  | .send o => match o.payload with
    | .file path => [path]
    | _ => []
  | .doctor o =>
    [o.directory.getD ({} : EndpointSettings).directory.text,
      CommandLine.temporaryDirectory environment]
  | _ => []

def runWords (words : List String) : IO UInt32 := do
  let router ← IO.getEnv CommandLine.routerVariable
  let level ← IO.getEnv CommandLine.logLevelVariable
  let temporary ← IO.getEnv CommandLine.temporaryVariable
  let environment (name : String) : Option String :=
    if name = CommandLine.routerVariable then router
    else if name = CommandLine.logLevelVariable then level
    else if name = CommandLine.temporaryVariable then temporary
    else none
  let now := (← Std.Time.Timestamp.now).toSecondsSinceUnixEpoch.val.toNat
  let terminal ← (← IO.getStdout).isTty
  let s : Surroundings := { environment, terminal, now }
  match CommandLine.parse environment words with
  | none =>
    IO.eprintln "usage: ipclink [--format FORMAT] send|listen|version|doctor ..."
    return Program.misuse
  | some i =>
    let files ← picture (named environment i.command)
    let machine : Machine := { name := ← Std.Async.System.getHostName, files }
    let format := Program.format s i
    match i.command with
    | .send o => runSend o machine format now
    | .listen o => runListen o format
    | .version _ => finish ((Program.run s words).run machine).1
    | .doctor o =>
      let network ← match o.connects, o.router.map Target.parse with
        | true, some (.ok t) => do pure (← reach t).2
        | _, _ => pure Network.isolated
      finish ((Program.run s words).run { machine with network }).1

end ModuleLink

def main (words : List String) : IO UInt32 := ModuleLink.runWords words
