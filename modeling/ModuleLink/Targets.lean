import ModuleLink.DecimalNumbers
import ModuleLink.TransportErrors
import ModuleLink.WhiteSpace

/-! # Where a module connects to

A target is a host or a host and a port. The text after the last colon is the port, so a host may
hold colons itself. -/
namespace ModuleLink

def defaultPort : UInt16 := 1381
def largestPort : Nat := 65535

structure Target where
  host : String
  port : UInt16
  deriving DecidableEq, Repr

namespace Target

def display (t : Target) : String := t.host ++ ":" ++ toString t.port

/-- The text before and after the last occurrence of a character. -/
def splitAtLast (c : Char) (cs : List Char) : Option (List Char × List Char) :=
  if c ∈ cs then
    let after := cs.reverse.takeWhile (· ≠ c)
    some ((cs.reverse.drop (after.length + 1)).reverse, after.reverse)
  else none

def port? (cs : List Char) : Option UInt16 := (natural? largestPort cs).map UInt16.ofNat

def parse (s : String) : Except TransportError Target :=
  let cs := trim s.toList
  let refused := .error (.invalidTarget (String.ofList cs))
  let made (host : List Char) (port : UInt16) :=
    if host = [] then refused else .ok ⟨String.ofList host, port⟩
  match splitAtLast ':' cs with
  | none => made cs defaultPort
  | some (host, port) =>
    match port? port with
    | none => refused
    | some port => made host port

end Target

/-- A machine name is this host's if it is the whole name or the part before one of its dots. -/
def isLocalHost (machine thisHost : String) : Bool :=
  let m := machine.toList
  let h := thisHost.toList
  m = h ∨ (m ++ ['.']).isPrefixOf h

end ModuleLink
