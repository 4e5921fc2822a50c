import ModuleLink.EndpointPaths
import ModuleLink.WhiteSpace

/-! # Requests for a connection over pipes

A client asks with one line that names two pipes: the one it will write to and the one it reads
from. The listener opens only pipes of its own directory. -/
namespace ModuleLink

structure PipeRequest where
  /-- From the client to the listener. -/
  up : Path
  /-- From the listener to the client. -/
  down : Path
  deriving DecidableEq, Repr

namespace PipeRequest

def line (r : PipeRequest) : Bytes := textBytes (String.ofList (r.up ++ '\t' :: r.down ++ ['\n']))

def malformed : TransportError :=
  .accept (.described .invalidData "malformed pipe connection request")

def parse (directory : Path) (line : Bytes) : Except TransportError PipeRequest :=
  match characters? line with
  | none => .error malformed
  | some cs =>
    let text := trimEnd cs
    let up := text.takeWhile (· ≠ '\t')
    let down := (text.dropWhile (· ≠ '\t')).drop 1
    let inside (p : Path) := p.parent? = some directory.steps
    if '\t' ∈ text ∧ inside up ∧ inside down then .ok ⟨up, down⟩ else .error malformed

end PipeRequest

end ModuleLink
