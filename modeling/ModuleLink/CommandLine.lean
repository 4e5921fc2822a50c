import ModuleLink.CommandWords
import ModuleLink.DecimalNumbers

/-! # What the program can be asked to do -/
namespace ModuleLink

inductive ReportFormat | json | table | pretty | raw
  deriving DecidableEq, Repr

/-- How to use channels within the machine. -/
structure LocalOptions where
  directory : Option String := none
  pipes : Bool := false
  networkOnly : Bool := false
  deriving DecidableEq, Repr

inductive PayloadOption
  | absent
  | text (value : String)
  | integers (values : List Int32)
  | file (path : String)
  deriving DecidableEq, Repr

structure SendOptions where
  target : String := "localhost"
  classId : UInt16 := 1
  intent : Int32 := -1
  messageRef : Option Int32 := none
  dispatchRef : Option Int32 := none
  payload : PayloadOption := .absent
  classData : Option String := none
  waits : Bool := false
  waitTimeout : String := "5s"
  within : LocalOptions := {}
  deriving DecidableEq, Repr

structure ListenOptions where
  port : UInt16
  classes : Option (List UInt16) := none
  count : Option Nat := none
  integers : Bool := false
  within : LocalOptions := {}
  deriving DecidableEq, Repr

structure DoctorOptions where
  router : Option String := none
  connects : Bool := false
  directory : Option String := none
  deriving DecidableEq, Repr

inductive Command
  | send (options : SendOptions)
  | listen (options : ListenOptions)
  | version (extended : Bool)
  | doctor (options : DoctorOptions)
  deriving DecidableEq, Repr

structure Invocation where
  format : Option ReportFormat := none
  command : Command
  deriving DecidableEq, Repr

/-- The values of environment variables. -/
abbrev Environment := String → Option String

namespace CommandLine

def routerVariable : String := "CENTRALHOST"
def logLevelVariable : String := "IPCLINK_LOG_LEVEL"
def temporaryVariable : String := "TMPDIR"

/-- The directory for files that nobody keeps. -/
def temporaryDirectory (env : Environment) : String := (env temporaryVariable).getD "/tmp"

def commonRules : List OptionRule :=
  [{ name := "format" }, { name := "log-format" }, { name := "log-level" }]

/-- What can be said before a command. -/
def outerRules : List OptionRule :=
  { name := "version", letter := some 'V', takesValue := false, ends := true } :: commonRules

def localRules : List OptionRule :=
  [{ name := "local-dir" }, { name := "fifo", takesValue := false },
    { name := "tcp-only", takesValue := false }]

def sendRules : List OptionRule := [
  { name := "class", letter := some 'c' }, { name := "intent", takesDashes := true },
  { name := "msg-ref", takesDashes := true }, { name := "dispatch-ref", takesDashes := true },
  { name := "data" }, { name := "ints", takesDashes := true, repeats := true }, { name := "file" },
  { name := "class-data" }, { name := "wait", takesValue := false }, { name := "wait-timeout" }]

def listenRules : List OptionRule := [
  { name := "classes", repeats := true }, { name := "count" },
  { name := "ints", takesValue := false }]

def doctorRules : List OptionRule :=
  [{ name := "router" }, { name := "connect", takesValue := false }, { name := "local-dir" }]

def format? : String → Option ReportFormat
  | "json" => some .json
  | "table" => some .table
  | "pretty" => some .pretty
  | "raw" => some .raw
  | _ => none

/-- A value that is absent, or read; none at all if it cannot be read. -/
def optional {α : Type} (read : String → Option α) : Option String → Option (Option α)
  | none => some none
  | some value => (read value).map some

def among (choices : List String) (value : Option String) : Option Unit :=
  if value.all (· ∈ choices) then some () else none

/-- What can be said anywhere on the line, checked; the answer is the format. -/
def common (env : Environment) (w : Words) : Option (Option ReportFormat) := do
  among ["text", "json"] (w.value? "log-format")
  among ["error", "warn", "info", "debug", "trace"] (w.value? "log-level" <|> env logLevelVariable)
  optional format? (w.value? "format")

def class? (cs : List Char) : Option UInt16 := (ranged? 0 65535 cs).map fun n => .ofNat n.toNat

def integer32? (cs : List Char) : Option Int32 :=
  (ranged? (-2147483648) 2147483647 cs).map .ofInt

/-- A path has at least one character. -/
def path? (value : String) : Option String := if value = "" then none else some value

def local? (w : Words) : Option LocalOptions := do
  if w.has "fifo" ∧ w.has "tcp-only" then none
  return {
    directory := ← optional path? (w.value? "local-dir")
    pipes := w.has "fifo"
    networkOnly := w.has "tcp-only" }

/-- There is one payload at most. -/
def payload? (w : Words) : Option PayloadOption :=
  match w.value? "data", w.items? "ints", w.value? "file" with
  | none, none, none => some .absent
  | some value, none, none => some (.text value)
  | none, some items, none => (items.mapM integer32?).map .integers
  | none, none, some path => (path? path).map .file
  | _, _, _ => none

def send? (env : Environment) (w : Words) : Option SendOptions := do
  let target ← match w.plain with
    | [] => some ((env routerVariable).getD "localhost")
    | [target] => some target
    | _ => none
  let number (name : String) := optional (integer32? ·.toList) (w.value? name)
  return {
    target
    classId := (← optional (class? ·.toList) (w.value? "class")).getD 1
    intent := (← number "intent").getD (-1)
    messageRef := ← number "msg-ref"
    dispatchRef := ← number "dispatch-ref"
    payload := ← payload? w
    classData := w.value? "class-data"
    waits := w.has "wait"
    waitTimeout := (w.value? "wait-timeout").getD "5s"
    within := ← local? w }

def largestCount : Nat := 18446744073709551615

def listen? (w : Words) : Option ListenOptions := do
  let [port] := w.plain | none
  return {
    port := ← class? port.toList
    classes := ← match w.items? "classes" with
      | none => some none
      | some items => (items.mapM class?).map some
    count := ← optional (natural? largestCount ·.toList) (w.value? "count")
    integers := w.has "ints"
    within := ← local? w }

def doctor? (env : Environment) (w : Words) : Option DoctorOptions := do
  let [] := w.plain | none
  return {
    router := w.value? "router" <|> env routerVariable
    connects := w.has "connect"
    directory := ← optional path? (w.value? "local-dir") }

/-- The rules of a command and how its words are read. -/
def command? (env : Environment) : String → Option (List OptionRule × (Words → Option Command))
  | "send" => some (sendRules ++ localRules, fun w => .send <$> send? env w)
  | "listen" => some (listenRules ++ localRules, fun w => .listen <$> listen? w)
  | "version" => some ([{ name := "extended", takesValue := false }], fun w =>
      if w.plain = [] then some (.version (w.has "extended")) else none)
  | "doctor" => some (doctorRules, fun w => .doctor <$> doctor? env w)
  | _ => none

/-- None for a line that makes no sense. What is said after the command wins. -/
def parse (env : Environment) (words : List String) : Option Invocation := do
  let (outer, rest) ← Words.scan outerRules true words {}
  if outer.has "version" then return { format := ← common (fun _ => none) outer, command := .version false }
  let name :: rest := rest | none
  let (rules, read) ← command? env name
  let (inner, _) ← Words.scan (rules ++ commonRules) false rest {}
  let command ← read inner
  let before ← common env outer
  let after ← common env inner
  return { format := after <|> before, command }

end CommandLine

end ModuleLink
