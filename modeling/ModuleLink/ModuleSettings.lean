import ModuleLink.EnvelopeStreams
import ModuleLink.Targets

/-! # Settings of a module -/
namespace ModuleLink

structure ModuleSettings where
  name : String := "ipclink"
  router : Target := ⟨"localhost", defaultPort⟩
  limits : Limits := {}
  /-- Queries are answered outside their handler, and their references freed with the answer. -/
  detachedResponses : Bool := false
  deriving DecidableEq, Repr

namespace ModuleSettings

/-- The environment variable that names the router. -/
def routerVariable : String := "CENTRALHOST"

/-- Takes the router from the variable's value, unless it is unset or blank. -/
def withRouterFrom (s : ModuleSettings) (value : Option String) :
    Except TransportError ModuleSettings :=
  match value with
  | none => .ok s
  | some v =>
    if trim v.toList = [] then .ok s
    else (Target.parse v).map fun router => { s with router }

/-- The module as a log shows it. -/
def text (s : ModuleSettings) : String :=
  "ModuleContext \x7b module: " ++ quoted s.name ++ ", router: Target \x7b host: " ++
    quoted s.router.host ++ ", port: " ++ toString s.router.port ++ " \x7d, .. \x7d"

end ModuleSettings

end ModuleLink
