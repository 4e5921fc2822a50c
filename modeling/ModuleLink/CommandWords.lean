/-! # The words of a command line

An option is a word that starts with two dashes, or one dash and a letter. Its value stands after
an equals sign or is the next word. After a bare double dash every word stands for itself. -/
namespace ModuleLink

structure OptionRule where
  name : String
  letter : Option Char := none
  takesValue : Bool := true
  /-- The next word is the value whatever it looks like. -/
  takesDashes : Bool := false
  repeats : Bool := false
  /-- Nothing after it counts, not even in its own word if that holds its letter. -/
  ends : Bool := false

/-- The options of a command line with their values, and the words that belong to no option. -/
structure Words where
  options : List (String × String) := []
  plain : List String := []
  deriving DecidableEq, Repr

namespace Words

def startsWithDash (word : String) : Bool := word.toList.head? = some '-' ∧ word ≠ "-"

/-- The option and the value that one word names. -/
def option? (rules : List OptionRule) (word : String) : Option (OptionRule × Option String) :=
  match word.toList with
  | '-' :: '-' :: cs =>
    let name := String.ofList (cs.takeWhile (· ≠ '='))
    (rules.find? (·.name = name)).map fun rule =>
      (rule, if '=' ∈ cs then some (String.ofList ((cs.dropWhile (· ≠ '=')).drop 1)) else none)
  | '-' :: c :: cs =>
    (rules.find? (·.letter = some c)).map fun rule =>
      (rule, if cs = [] ∨ rule.ends then none else some (String.ofList (if cs.head? = some '=' then cs.drop 1 else cs)))
  | _ => none

/-- One occurrence more, unless the option was given already. -/
def add (w : Words) (rule : OptionRule) (value : String) : Option Words :=
  if !rule.repeats ∧ (w.options.lookup rule.name).isSome then none
  else some { w with options := w.options ++ [(rule.name, value)] }

/-- Reads words up to a command, if commands are expected, or else all of them. -/
def scan (rules : List OptionRule) (stops : Bool) : List String → Words → Option (Words × List String)
  | [], w => some (w, [])
  | word :: rest, w =>
    if word = "--" then
      if stops then none else some ({ w with plain := w.plain ++ rest }, [])
    else if startsWithDash word then do
      let (rule, value) ← option? rules word
      match rule.takesValue, value with
      | false, none =>
        let w ← w.add rule ""
        if rule.ends then some (w, []) else scan rules stops rest w
      | false, some _ => none
      | true, some value => scan rules stops rest (← w.add rule value)
      | true, none =>
        match rest with
        | [] => none
        | value :: rest =>
          if startsWithDash value ∧ !rule.takesDashes then none
          else scan rules stops rest (← w.add rule value)
    else if stops then some (w, word :: rest)
    else scan rules stops rest { w with plain := w.plain ++ [word] }

def value? (w : Words) (name : String) : Option String := w.options.lookup name

def has (w : Words) (name : String) : Bool := (w.value? name).isSome

/-- The parts of all values of an option that lists things. -/
def items? (w : Words) (name : String) : Option (List (List Char)) :=
  match w.options.filter (·.1 = name) with
  | [] => none
  | values => some (values.flatMap fun (_, value) => value.toList.splitOn ',')

end Words

end ModuleLink
