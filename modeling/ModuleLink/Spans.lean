/-! # Lengths of time -/
namespace ModuleLink

/-- A length of time, counted in nanoseconds. -/
structure Span where
  nanos : Nat
  deriving DecidableEq, Repr

namespace Span

def zero : Span := ⟨0⟩
def ofMillis (n : Nat) : Span := ⟨n * 1000000⟩
def ofSeconds (n : Nat) : Span := ⟨n * 1000000000⟩

/-- Whole milliseconds that cover the span. -/
def ceilMillis (d : Span) : Nat := (d.nanos + 999999) / 1000000

/-- The digits of `part` in `places` places, less the zeros at their end. -/
def fraction (part places : Nat) : String :=
  let digits := (Nat.toDigits 10 (Nat.pow 10 places + part)).drop 1
  String.ofList (digits.reverse.dropWhile (· = '0')).reverse

/-- A number with a fraction, which is left out when it is zero. -/
def decimal (whole part places : Nat) : String :=
  if part = 0 then toString whole else toString whole ++ "." ++ fraction part places

/-- The span in the largest unit of which it holds at least one. -/
def text (d : Span) : String :=
  if 1000000000 ≤ d.nanos then decimal (d.nanos / 1000000000) (d.nanos % 1000000000) 9 ++ "s"
  else if 1000000 ≤ d.nanos then decimal (d.nanos / 1000000) (d.nanos % 1000000) 6 ++ "ms"
  else if 1000 ≤ d.nanos then decimal (d.nanos / 1000) (d.nanos % 1000) 3 ++ "µs"
  else toString d.nanos ++ "ns"

end Span

end ModuleLink
