import ModuleLink.SendCommand

/-! # Checks of a machine's health -/
namespace ModuleLink

inductive CheckStatus | pass | fail | warn | info | skip
  deriving DecidableEq, Repr

def CheckStatus.name : CheckStatus → String
  | pass => "pass"
  | fail => "fail"
  | warn => "warn"
  | info => "info"
  | skip => "skip"

structure HealthCheck where
  name : String
  status : CheckStatus
  detail : String
  deriving DecidableEq, Repr

/-- What is to be known about the directory of endpoints. -/
def directoryCheck (files : FileSystem) (path : Path) : HealthCheck :=
  let (status, detail) : CheckStatus × String :=
    match files.find path with
    | .ok (_, node) =>
      if !node.isDirectory then (.fail, s!"{path.text} is not a directory")
      else if node.isReadOnly then
        (.warn, s!"{path.text} is read-only; listeners will accept over TCP only")
      else (.pass, s!"{path.text} present")
    | .error cause =>
      if cause.kind = .notFound then (.info, s!"{path.text} absent; the first listener creates it")
      else (.fail, s!"{path.text}: {cause.message}")
  ⟨"local_dir", status, detail⟩

/-- Tries to make a socket in a directory of its own, which is removed afterwards. The process and
the time in nanoseconds make its name unlike any other. -/
def temporaryCheck (above : Path) (now : Nat) : StateM Machine HealthCheck := do
  let m ← get
  let directory := above.join s!"ipclink-doctor-{m.process}-{now * 1000000000}".toList
  Machine.updateFiles fun s => (s.makeDirectories directory 0o777).2
  let result ← (SocketEndpoint.bindAt (Path.join directory "doctor.sock".toList) 0o700).run
  set m
  match result with
  | .ok _ => return ⟨"temp_dir_writable", .pass, "temp socket bind succeeded"⟩
  | .error e => return ⟨"temp_dir_writable", .fail, s!"temp socket bind failed: {e.message}"⟩

namespace DoctorOptions

def settings (o : DoctorOptions) : EndpointSettings :=
  ({ directory := o.directory } : LocalOptions).settings

def routerChecks (o : DoctorOptions) : StateM Machine (List HealthCheck) := do
  match o.router with
  | none => return [⟨"router_target", .skip, "no --router given and CENTRALHOST not set"⟩]
  | some router =>
    match Target.parse router with
    | .error e => return [⟨"router_target", .fail, e.message⟩]
    | .ok target =>
      let place := if isLocalHost target.host (← get).name then "same host" else "remote"
      let named : HealthCheck := ⟨"router_target", .pass, s!"{target.display} ({place})"⟩
      if !o.connects then
        return [named, ⟨"router_connect", .skip, "pass --connect to try a connection"⟩]
      match ← (Machine.connect target o.settings (pure ())).run with
      | .ok channel =>
        return [named, ⟨"router_connect", .pass, s!"connected over {channel.kind.name}"⟩]
      | .error e => return [named, ⟨"router_connect", .fail, e.message⟩]

def checks (o : DoctorOptions) (above : Path) (now : Nat) : StateM Machine (List HealthCheck) := do
  let m ← get
  let temporary ← temporaryCheck above now
  let router ← o.routerChecks
  return [⟨"platform_transport", .pass, "TCP, Unix domain sockets and named pipes available"⟩,
    ⟨"hostname", .pass, m.name⟩, directoryCheck m.files o.settings.directory, temporary] ++
    router ++ [⟨"compiled_features", .info, "peer, cli"⟩]

end DoctorOptions

namespace HealthCheck

def anyFails (checks : List HealthCheck) : Bool := checks.any (·.status = .fail)

def overall (checks : List HealthCheck) : String := if anyFails checks then "fail" else "pass"

def json (checks : List HealthCheck) : JsonValue :=
  .record [
    ("checks", .list (checks.map fun c => .record
      [("name", .text c.name), ("status", .text c.status.name), ("detail", .text c.detail)])),
    ("overall", .text (overall checks))]

def line (c : HealthCheck) : String :=
  s!"  [{c.status.name.toUpper}] {padded 22 c.name} {c.detail}\n"

def report (checks : List HealthCheck) : ReportFormat → String
  | .json => (json checks).render ++ "\n"
  | .raw => overall checks ++ "\n"
  | .table | .pretty =>
    "ipclink doctor\n\n" ++ String.join (checks.map line) ++
      (if anyFails checks then "\n  Result: one or more checks failed\n"
        else "\n  Result: all checks passed\n")

end HealthCheck

def DoctorOptions.run (o : DoctorOptions) (above : Path) (format : ReportFormat) (now : Nat) :
    StateM Machine Finished := do
  let checks ← o.checks above now
  return { code := if HealthCheck.anyFails checks then ExitReport.failedHealthCheck else 0
           output := textBytes (HealthCheck.report checks format) }

end ModuleLink
