import ModuleLink.TextBytes
import ModuleLink.TransportErrors

/-! # Paths of endpoints

A module that listens on a port publishes an entry in a directory that all modules of the machine
share. Two paths are the same if they take the same steps, so repeated slashes and inner dots do
not count. -/
namespace ModuleLink

abbrev Path := List Char

inductive PathStep
  | root
  | here
  | up
  | entry (name : List Char)
  deriving DecidableEq, Repr

namespace Path

def text (p : Path) : String := String.ofList p

/-- Length of a path in bytes. -/
def size (p : Path) : Nat := (textBytes p.text).length

def piece : List Char → Option PathStep
  | [] => none
  | ['.'] => some .here
  | ['.', '.'] => some .up
  | name => some (.entry name)

/-- Every step that the text spells; what is empty between two slashes is no step. -/
def walk (p : Path) : List PathStep :=
  let steps := (p.splitOn '/').filterMap piece
  if p.head? = some '/' then .root :: steps else steps

/-- The steps by which paths are compared: a dot counts only at the start of a path. -/
def steps (p : Path) : List PathStep :=
  match p.walk with
  | .here :: rest => .here :: rest.filter (· ≠ .here)
  | all => all.filter (· ≠ .here)

/-- A path that ends in a slash leads to a directory or nowhere. -/
def endsInSlash (p : Path) : Bool := p.getLast? = some '/'

/-- Where the first null character stands, counted in bytes; the system cannot be given any. -/
def null? (p : Path) : Option Nat := (textBytes p.text).findIdx? (· = 0)

/-- The steps to where the last one starts; neither the root nor nothing at all has any. -/
def parent? (p : Path) : Option (List PathStep) :=
  match p.steps.getLast? with
  | none | some .root => none
  | some _ => some p.steps.dropLast

/-- A path from a directory on; one that starts at the root stays as it is. -/
def join (directory name : Path) : Path :=
  if name.head? = some '/' then name
  else if directory = [] ∨ directory.getLast? = some '/' then directory ++ name
  else directory ++ '/' :: name

/-- The first length that is too long for the address of a socket. -/
def sizeLimit : Nat := 108

def checkSize (p : Path) : Except TransportError Unit :=
  if sizeLimit ≤ p.size then .error (.pathTooLong p.text p.size sizeLimit) else .ok ()

end Path

/-- Where a module publishes its socket. -/
def socketPath (directory : Path) (port : UInt16) : Path := directory.join (toString port).toList

/-- Where a module publishes the pipe that takes requests. -/
def requestPipePath (directory : Path) (port : UInt16) : Path :=
  directory.join ((toString port).toList ++ ".fifo".toList)

/-- Where a client makes one pipe of a pair; no two attempts share a name. -/
def pairPath (directory : Path) (port : UInt16) (process serial : Nat) (direction : String) : Path :=
  directory.join (s!"{port}.{process}.{serial}.{direction}").toList

end ModuleLink
