import ModuleLink.QuotedText

/-! # Values as JSON text -/
namespace ModuleLink

inductive JsonValue
  | text (value : String)
  | number (value : Int)
  | list (items : List JsonValue)
  | record (fields : List (String × JsonValue))

namespace JsonValue

/-- Control characters are written as escapes, all others but the quote and the backslash as they
are. -/
def escaped (c : Char) : String :=
  if c = '"' then "\\\""
  else if c = '\\' then "\\\\"
  else if c = '\x08' then "\\b"
  else if c = '\x09' then "\\t"
  else if c = '\x0a' then "\\n"
  else if c = '\x0c' then "\\f"
  else if c = '\x0d' then "\\r"
  else if c.toNat < 32 then "\\u00" ++ byteHex (.ofNat c.toNat)
  else c.toString

def quotedString (s : String) : String := "\"" ++ String.join (s.toList.map escaped) ++ "\""

mutual

def render : JsonValue → String
  | text value => quotedString value
  | number value => toString value
  | list items => "[" ++ ",".intercalate (renderItems items) ++ "]"
  | record fields => "\x7b" ++ ",".intercalate (renderFields fields) ++ "\x7d"

def renderItems : List JsonValue → List String
  | [] => []
  | value :: rest => value.render :: renderItems rest

def renderFields : List (String × JsonValue) → List String
  | [] => []
  | (name, value) :: rest => (quotedString name ++ ":" ++ value.render) :: renderFields rest

end

end JsonValue

end ModuleLink
