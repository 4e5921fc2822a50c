import ModuleLink.ByteOrders

/-! # Text as UTF-8 bytes -/
namespace ModuleLink

def isContinuation (b : UInt8) : Bool := 0x80 ≤ b && b ≤ 0xbf

/-- The scalar value of a leading byte's own bits followed by six bits per continuation byte. -/
def scalar (lead : Nat) (tail : List UInt8) : Char :=
  Char.ofNat (tail.foldl (fun n b => n * 64 + b.toNat % 64) lead)

/-- The characters that were read, last first, and those that the other bytes spell: no overlong
form, no surrogate, nothing past the last plane. -/
def charactersAfter (read : List Char) : Bytes → Option (List Char)
  | [] => some read.reverse
  | a :: rest =>
    if a < 0x80 then charactersAfter (Char.ofNat a.toNat :: read) rest
    else if a < 0xc2 then none
    else match rest with
      | [] => none
      | b :: rest =>
        if a < 0xe0 then
          if isContinuation b then charactersAfter (scalar (a.toNat - 0xc0) [b] :: read) rest else none
        else match rest with
          | [] => none
          | c :: rest =>
            if a < 0xf0 then
              if isContinuation b && isContinuation c && (a != 0xe0 || 0xa0 ≤ b) && (a != 0xed || b < 0xa0)
              then charactersAfter (scalar (a.toNat - 0xe0) [b, c] :: read) rest
              else none
            else match rest with
              | [] => none
              | d :: rest =>
                if a < 0xf5 && isContinuation b && isContinuation c && isContinuation d &&
                    (a != 0xf0 || 0x90 ≤ b) && (a != 0xf4 || b < 0x90)
                then charactersAfter (scalar (a.toNat - 0xf0) [b, c, d] :: read) rest
                else none

def characters? (bytes : Bytes) : Option (List Char) := charactersAfter [] bytes

def isText (bytes : Bytes) : Bool := (characters? bytes).isSome

def text? (bytes : Bytes) : Option String := (characters? bytes).map String.ofList

def textBytes (s : String) : Bytes := s.toUTF8.toList

end ModuleLink
