import ModuleLink.DecimalNumbers
import ModuleLink.TextBytes
import ModuleLink.TransportErrors

/-! # Numeric internet addresses

An address is four bytes or eight groups of sixteen bits. In text the groups are hexadecimal, a
double colon stands for groups that are zero, and the last two may be written as four bytes. -/
namespace ModuleLink

inductive HostAddress
  | bytes (parts : List Nat)
  /-- The zone says which network an address of one link is about. -/
  | groups (parts : List Nat) (zone : Nat)
  deriving DecidableEq, Repr

namespace HostAddress

/-- One to three digits up to 255, with no zero in front of others. -/
def byte? (cs : List Char) : Option Nat :=
  if cs.length ≤ 3 ∧ ¬(cs.head? = some '0' ∧ 1 < cs.length) then
    (digits? cs).filter (· ≤ 255)
  else none

def bytes? (cs : List Char) : Option (List Nat) :=
  let parts := cs.splitOn '.'
  if parts.length = 4 then parts.mapM byte? else none

def hexDigit? (c : Char) : Option Nat :=
  if 'a' ≤ c ∧ c ≤ 'f' then some (c.toNat - 'a'.toNat + 10)
  else if 'A' ≤ c ∧ c ≤ 'F' then some (c.toNat - 'A'.toNat + 10)
  else digit? c

/-- One to four hexadecimal digits. -/
def group? (cs : List Char) : Option Nat :=
  if cs = [] ∨ 4 < cs.length then none
  else cs.foldlM (fun n c => (hexDigit? c).map (n * 16 + ·)) 0

def pairs : List Nat → List Nat
  | a :: b :: rest => (a * 256 + b) :: pairs rest
  | _ => []

/-- The groups of the texts between colons. -/
def groupsOf? : List (List Char) → Option (List Nat)
  | [] => some []
  | [last] => (group? last).map ([·]) <|> (bytes? last).map pairs
  | text :: rest => do return (← group? text) :: (← groupsOf? rest)

def between (cs : List Char) : List (List Char) := if cs = [] then [] else cs.splitOn ':'

/-- The text before and after the first double colon. -/
def splitAtGap : List Char → Option (List Char × List Char)
  | [] => none
  | c :: cs =>
    if c = ':' ∧ cs.head? = some ':' then some ([], cs.drop 1)
    else (splitAtGap cs).map fun (before, after) => (c :: before, after)

/-- Eight groups; a gap stands for one or more of them. -/
def groups? (cs : List Char) : Option (List Nat) :=
  match splitAtGap cs with
  | none => (groupsOf? (between cs)).filter (·.length = 8)
  | some (before, after) => do
    let front ← (between before).mapM group?
    let back ← groupsOf? (between after)
    if 8 ≤ front.length + back.length then none
    return front ++ List.replicate (8 - front.length - back.length) 0 ++ back

def isLinkLocal (parts : List Nat) : Bool := parts.head?.any (· / 64 = 0xfe80 / 64)

/-- Groups of receivers on one machine or one link. -/
def isNearGroup (parts : List Nat) : Bool :=
  parts.head?.any fun first => first / 256 = 0xff && (first % 16 = 1 || first % 16 = 2)

/-- The first length that is too long for the name of a network, in bytes. -/
def zoneNameLimit : Nat := 16

/-- The network of a machine with itself has a name; after a colon it may have others. -/
def isOwnNetwork (cs : List Char) : Bool :=
  cs.takeWhile (· ≠ ':') = ['l', 'o'] && (textBytes (String.ofList cs)).length < zoneNameLimit

/-- A zone is a number of 32 bits; where addresses need one, it can be named as well. -/
def zone? (parts : List Nat) (cs : List Char) : Option Nat :=
  if (isLinkLocal parts || isNearGroup parts) && isOwnNetwork cs then some 1
  else (digits? cs).filter (· < 4294967296)

/-- Groups and, after a percent sign, their zone. -/
def zoned? (cs : List Char) : Option HostAddress := do
  let parts ← groups? (cs.takeWhile (· ≠ '%'))
  if '%' ∈ cs then return .groups parts (← zone? parts ((cs.dropWhile (· ≠ '%')).drop 1))
  return .groups parts 0

def bytesText (parts : List Nat) : String := ".".intercalate (parts.map toString)

def groupsText (parts : List Nat) : String := ":".intercalate (parts.map lowerHex)

/-- Where the first of the longest runs of zeros starts, and its length. -/
def longestRun (parts : List Nat) : Nat × Nat :=
  (List.range parts.length).foldl (fun longest start =>
    let length := ((parts.drop start).takeWhile (· = 0)).length
    if longest.2 < length then (start, length) else longest) (0, 0)

/-- The bytes of an address that only wraps four of them. -/
def wrapped? (parts : List Nat) : Option (List Nat) :=
  if parts.take 6 = [0, 0, 0, 0, 0, 0xffff] then
    some ((parts.drop 6).flatMap fun n => [n / 256, n % 256])
  else none

/-- Two zeros or more are left out where there are most. -/
def shortText (parts : List Nat) : String :=
  match wrapped? parts with
  | some four => "::ffff:" ++ bytesText four
  | none =>
    let (start, length) := longestRun parts
    if 1 < length then
      groupsText (parts.take start) ++ "::" ++ groupsText (parts.drop (start + length))
    else groupsText parts

end HostAddress

structure InternetAddress where
  host : HostAddress
  port : UInt16
  deriving DecidableEq, Repr

def InternetAddress.text (a : InternetAddress) : String :=
  match a.host with
  | .bytes parts => HostAddress.bytesText parts ++ ":" ++ toString a.port
  | .groups parts zone =>
    let zone := if zone = 0 then "" else "%" ++ toString zone
    "[" ++ HostAddress.shortText parts ++ zone ++ "]:" ++ toString a.port

def unknownHost : SystemError :=
  .described .other "failed to lookup address information: Name or service not known"

/-- A host name that starts with a digit has to be four bytes; any other may be groups, or is
looked up in the names that the host knows. -/
def resolve (known : String → Option HostAddress) (host : String) (port : UInt16) :
    Except TransportError InternetAddress :=
  let cs := host.toList
  let refused (cause : SystemError) := Except.error (TransportError.resolve host cause)
  if cs.head?.any Char.isDigit then
    match HostAddress.bytes? cs with
    | some parts => .ok ⟨.bytes parts, port⟩
    | none => refused (.described .invalidInput "invalid numeric address")
  else if '\x00' ∈ cs then refused nullInName
  else
    match HostAddress.zoned? cs <|> known host with
    | some address => .ok ⟨address, port⟩
    | none => refused unknownHost

end ModuleLink
