import ModuleLink.FileNodes

/-! # The files among which endpoints live

Names lead to numbered nodes, so a node outlives its name while somebody has it open. The way to a
place takes directories that can be searched; what is to be made or removed takes one that can be
written. -/
namespace ModuleLink

structure OpenFile where
  node : Nat
  reads : Bool
  writes : Bool
  offset : Nat := 0
  deriving DecidableEq, Repr

/-- The names on the way from the root. -/
abbrev Place := List (List Char)

structure FileSystem where
  names : List (Place × Nat) := [([], 0)]
  nodes : List FileNode := [.directory 0o755]
  opened : List (Option OpenFile) := []
  working : Place := []
  deriving DecidableEq, Repr

namespace FileSystem

def denied : SystemError := .numbered 13
def alreadyExists : SystemError := .numbered 17
def isDirectory : SystemError := .numbered 21
def nameTooLong : SystemError := .numbered 36

def longestName : Nat := 255

/-- The first length at which a path is not looked at. -/
def pathLimit : Nat := 4096

def number? (s : FileSystem) (place : Place) : Option Nat := s.names.lookup place

def node? (s : FileSystem) (place : Place) : Option FileNode := (s.number? place).bind (s.nodes[·]?)

def checkSearch (s : FileSystem) (place : Place) : Except SystemError Unit :=
  match s.node? place with
  | none => .error .noEntry
  | some node =>
    if !node.isDirectory then .error .notDirectory
    else if !node.allows .search then .error denied
    else .ok ()

def follow (s : FileSystem) (place : Place) : PathStep → Except SystemError Place
  | .root => .ok []
  | .here => do
    s.checkSearch place
    return place
  | .up => do
    s.checkSearch place
    return place.dropLast
  | .entry name => do
    s.checkSearch place
    if longestName < Path.size name then throw nameTooLong
    return place ++ [name]

/-- Where steps lead; only the directories on the way need to exist. -/
def reach (s : FileSystem) (steps : List PathStep) : Except SystemError Place :=
  steps.foldlM s.follow s.working

/-- What is wrong with a path wherever it leads. -/
def checkText (path : Path) : Except SystemError Unit :=
  if path.null?.isSome then .error nullInName
  else if pathLimit ≤ path.size then .error nameTooLong
  else .ok ()

def locate (s : FileSystem) (path : Path) : Except SystemError Place := do
  checkText path
  if path = [] then throw .noEntry
  s.reach path.walk

def find (s : FileSystem) (path : Path) : Except SystemError (Nat × FileNode) := do
  let place ← s.locate path
  match s.number? place with
  | none => throw .noEntry
  | some n =>
    let node := (s.nodes[n]?).getD (.regular [])
    if path.endsInSlash && !node.isDirectory then throw .notDirectory
    return (n, node)

def holdsDirectory (s : FileSystem) (path : Path) : Bool :=
  match s.find path with
  | .ok (_, node) => node.isDirectory
  | .error _ => false

def setNode (s : FileSystem) (n : Nat) (node : FileNode) : FileSystem :=
  { s with nodes := s.nodes.set n node }

/-- A node without a name. -/
def addNode (s : FileSystem) (node : FileNode) : Nat × FileSystem :=
  (s.nodes.length, { s with nodes := s.nodes ++ [node] })

def addName (s : FileSystem) (place : Place) (node : FileNode) : Nat × FileSystem :=
  let (n, s) := s.addNode node
  (n, { s with names := s.names ++ [(place, n)] })

def namesEntry (steps : List PathStep) : Bool :=
  match steps.getLast? with
  | some (.entry _) => true
  | _ => false

/-- A place can be taken if steps name it and nothing is there. -/
def checkFree (s : FileSystem) (steps : List PathStep) (place : Place) : Except SystemError Unit :=
  if namesEntry steps && (s.number? place).isNone then .ok () else .error alreadyExists

/-- The directory of a place can be changed. -/
def checkChange (s : FileSystem) (place : Place) : Except SystemError Unit :=
  match s.node? place.dropLast with
  | some (.sealedDirectory _ refusal) => .error refusal
  | some node => if node.allows .write then .ok () else .error denied
  | none => .error .noEntry

/-- Gives a path to something that is no directory. -/
def make (s : FileSystem) (path : Path) (node : FileNode) : Except SystemError (Nat × FileSystem) := do
  let place ← s.locate path
  s.checkFree path.walk place
  if path.endsInSlash then throw .noEntry
  s.checkChange place
  return s.addName place node

def remove (s : FileSystem) (path : Path) : Except SystemError FileSystem := do
  let place ← s.locate path
  if !namesEntry path.walk then throw isDirectory
  let (_, node) ← s.find path
  s.checkChange place
  if node.isDirectory then throw isDirectory
  return { s with names := s.names.filter (·.1 ≠ place) }

/-- Removes a name if it can be removed. -/
def discard (s : FileSystem) (path : Path) : FileSystem := (s.remove path).toOption.getD s

/-- The same files and one more, with the directories on the way to it, whoever they belong to. -/
def furnish (s : FileSystem) (path : Path) (node : FileNode) : FileSystem :=
  let place := path.walk.foldl (fun place step =>
    match step with
    | .root => []
    | .here => place
    | .up => place.dropLast
    | .entry name => place ++ [name]) s.working
  let s := (List.range place.length).foldl (fun (s : FileSystem) n =>
    if (s.number? (place.take n)).isSome then s
    else (s.addName (place.take n) (.directory 0o755)).2) s
  match s.number? place with
  | some n => s.setNode n node
  | none => (s.addName place node).2

/-- The entries of a directory in the order of their names; none if they cannot be seen. -/
def list (s : FileSystem) (path : Path) : List (String × FileNode) :=
  match s.locate path with
  | .error _ => []
  | .ok place =>
    let entries := s.names.filterMap fun (p, n) =>
      if p ≠ [] ∧ p.dropLast = place then
        (s.nodes[n]?).map (String.ofList (p.getLast?.getD []), ·)
      else none
    if (s.node? place).any fun node => node.allows .read && node.allows .search then
      entries.mergeSort fun a b => a.1 ≤ b.1
    else []

end FileSystem

end ModuleLink
