import ModuleLink.CommandLine
import ModuleLink.Envelopes
import ModuleLink.JsonText
import ModuleLink.TextBytes

/-! # Envelopes for people to read -/
namespace ModuleLink

/-- What a payload is taken for. -/
inductive PayloadView | text | integers
  deriving DecidableEq, Repr

/-- Bytes that are no text are only counted. -/
def textPreview (bytes : Bytes) : String :=
  (text? bytes).getD s!"<binary {bytes.length} bytes>"

def integersOf : Bytes → List Int
  | a :: b :: c :: d :: rest => (wordOfBytes d c b a).toInt32.toInt :: integersOf rest
  | _ => []

def integersPreview (bytes : Bytes) : String :=
  "[" ++ ", ".intercalate ((integersOf bytes).map toString) ++ "]"

def payloadPreview (m : Envelope) : PayloadView → String
  | .text => textPreview m.payload
  | .integers =>
    match m.decodePayload .int32Array with
    | .ok (some bytes) => integersPreview bytes
    | .ok none => ""
    | .error e => s!"<undecodable: {e.message}>"

/-! A table with one row under its head. -/

def padded (width : Nat) (s : String) : String :=
  s ++ String.ofList (List.replicate (width - s.length) ' ')

/-- One line of cells between bars. -/
def tableLine (widths : List Nat) (cells : List String) : String :=
  "│" ++ "┆".intercalate ((widths.zip cells).map fun (w, cell) => " " ++ padded w cell ++ " ") ++ "│"

def tableRule (widths : List Nat) (first dash cross last : String) : String :=
  first ++ cross.intercalate (widths.map fun w => String.join (List.replicate (w + 2) dash)) ++ last

/-- The lines of a row; a cell may have several. -/
def tableRow (widths : List Nat) (cells : List (List String)) : List String :=
  (List.range (cells.foldl (fun n lines => max n lines.length) 1)).map fun i =>
    tableLine widths (cells.map fun lines => lines.getD i "")

def table (head : List String) (row : List String) : String :=
  let cells := row.map fun cell => (cell.toList.splitOn '\n').map String.ofList
  let widths := (head.zip cells).map fun (title, lines) =>
    lines.foldl (fun n line => max n line.length) title.length
  "\n".intercalate (
    [tableRule widths "┌" "─" "┬" "┐", tableLine widths head, tableRule widths "╞" "═" "╪" "╡"] ++
    tableRow widths cells ++ [tableRule widths "└" "─" "┴" "┘"])

namespace Envelope

def json (m : Envelope) (peer : String) (view : PayloadView) (now : Nat) : JsonValue :=
  .record [("class", .number m.classId.toNat), ("intent", .number m.intent.toInt),
    ("msg_ref", .number m.messageRef.toInt), ("dispatch_ref", .number m.header.dispatchRef.toInt),
    ("parent_ref", .number m.header.parentRef.toInt),
    ("byte_order", .text m.classifier.dataOrder.name), ("class_size", .number m.classData.length),
    ("payload_size", .number m.payload.length), ("class_data", .text (textPreview m.classData)),
    ("payload", .text (payloadPreview m view)), ("peer", .text peer),
    ("timestamp", .text (toString now))]

/-- What is printed for an envelope that came from a peer so many seconds after the epoch. -/
def report (m : Envelope) (peer : String) (view : PayloadView) (now : Nat) : ReportFormat → Bytes
  | .json => textBytes ((m.json peer view now).render ++ "\n")
  | .table =>
    textBytes (table ["CLASS", "INTENT", "REF", "DISPATCH", "SIZE", "PEER", "PAYLOAD"]
      [toString m.classId, toString m.intent.toInt, toString m.messageRef.toInt,
        toString m.header.dispatchRef.toInt, toString m.payload.length, peer,
        payloadPreview m view] ++ "\n")
  | .pretty =>
    textBytes (s!"class={m.classId} intent={m.intent.toInt} ref={m.messageRef.toInt} " ++
      s!"dispatch={m.header.dispatchRef.toInt} size={m.payload.length} peer={peer} " ++
      s!"payload={payloadPreview m view}\n")
  | .raw => m.payload

end Envelope

end ModuleLink
