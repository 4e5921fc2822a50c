import ModuleLink.SystemErrors
import ModuleLink.ByteOrders

/-! # Calls on a stream

A stream may move fewer bytes than it was asked for and may fail at any call. Its script says what
the next calls do; after the script every call moves as much as it can. -/
namespace ModuleLink

/-- What one call does: move at most so many bytes, or fail. -/
inductive Turn
  | move (most : Nat)
  | fail (cause : SystemError)
  deriving DecidableEq, Repr

/-- The lengths of the buffers that a call was given. -/
inductive Call
  | plain (length : Nat)
  | spread (lengths : List Nat)
  deriving DecidableEq, Repr

/-- Bytes for which buffers of these lengths have room. -/
def capacity (lengths : List Nat) : Nat := lengths.foldr (· + ·) 0

/-- Bytes that one call can move: a stream that cannot gather serves the first buffer that is not
empty. -/
def Call.room (gathers : Bool) : Call → Nat
  | plain length => length
  | spread lengths => if gathers then capacity lengths else (lengths.find? (· ≠ 0)).getD 0

/-- What is left of buffers of these lengths after so many bytes; buffers with no room left are
dropped from the front. -/
def advance : List Nat → Nat → List Nat
  | [], _ => []
  | n :: ns, moved => if n ≤ moved then advance ns (moved - n) else (n - moved) :: ns

end ModuleLink
