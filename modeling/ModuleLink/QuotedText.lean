import ModuleLink.EscapedCharacters

/-! # Text between quotes

Error texts show names and targets between double quotes, with everything that could be misread
written as an escape. -/
namespace ModuleLink

/-- Lower-case digits of a number, most significant first, without leading zeros. -/
def lowerHex (n : Nat) : String := String.ofList (Nat.toDigits 16 n)

/-- Two lower-case hexadecimal digits of a byte. -/
def byteHex (b : UInt8) : String :=
  if b < 16 then "0" ++ lowerHex b.toNat else lowerHex b.toNat

/-- How one character stands between quotes; the single quote needs no escape. -/
def quotedChar (c : Char) : String :=
  if c = '\x00' then "\\0"
  else if c = '\t' then "\\t"
  else if c = '\r' then "\\r"
  else if c = '\n' then "\\n"
  else if c = '"' then "\\\""
  else if c = '\\' then "\\\\"
  else if isEscapedCode c.toNat then "\\u\x7b" ++ lowerHex c.toNat ++ "\x7d"
  else c.toString

def quoted (s : String) : String :=
  "\"" ++ String.join (s.toList.map quotedChar) ++ "\""

end ModuleLink
