import ModuleLink.HealthChecks
import ModuleLink.ListenCommand

/-! # The program as a whole -/
namespace ModuleLink

/-- What a run of the program finds around it besides the machine. -/
structure Surroundings where
  environment : Environment
  /-- Reports go to a terminal. -/
  terminal : Bool := false
  /-- Seconds since the epoch. -/
  now : Nat := 0
  /-- Who connects while the program listens. -/
  arrivals : List Connection := []

namespace Program

def version : String := "0.3.0"

def versionText (extended : Bool) : String :=
  if extended then
    s!"name: ipclink\nversion: {version}\ntarget: unknown\ntarget_os: linux\n" ++
      "target_arch: x86_64\nrustc: unknown\ngit_hash: unknown\n" ++
      s!"features: peer=true, cli=true\ndefault_port: {defaultPort}\n"
  else s!"ipclink {version}\n"

/-- Reports are tables on a terminal and JSON elsewhere, unless the line says otherwise. -/
def format (s : Surroundings) (i : Invocation) : ReportFormat :=
  i.format.getD (if s.terminal then .table else .json)

def misuse : UInt32 := 2

def run (s : Surroundings) (words : List String) : StateM Machine Finished := do
  match CommandLine.parse s.environment words with
  | none => return { code := misuse }
  | some i =>
    match i.command with
    | .send o => o.run (format s i) s.now
    | .listen o => o.run (format s i) s.now s.arrivals
    | .version extended => return { output := textBytes (versionText extended) }
    | .doctor o =>
      o.run (CommandLine.temporaryDirectory s.environment).toList (format s i) s.now

end Program

end ModuleLink
