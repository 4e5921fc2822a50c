/-! # Numbers in text -/
namespace ModuleLink

def digit? (c : Char) : Option Nat := if c.isDigit then some (c.toNat - '0'.toNat) else none

/-- The value of one or more decimal digits. -/
def digits? (cs : List Char) : Option Nat :=
  if cs = [] then none else cs.foldlM (fun n c => (digit? c).map (n * 10 + ·)) 0

/-- A number up to a limit, which may carry a plus sign. -/
def natural? (limit : Nat) (cs : List Char) : Option Nat :=
  (digits? (if cs.head? = some '+' then cs.drop 1 else cs)).filter (· ≤ limit)

/-- A number between two limits, which may carry either sign. -/
def ranged? (low high : Int) (cs : List Char) : Option Int :=
  let value : Option Int := match cs with
    | '-' :: cs => (digits? cs).map fun n => -n
    | '+' :: cs => (digits? cs).map fun n => n
    | cs => (digits? cs).map fun n => n
  value.filter fun n => low ≤ n ∧ n ≤ high

end ModuleLink
