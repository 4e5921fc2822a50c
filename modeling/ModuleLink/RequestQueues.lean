import ModuleLink.ByteSources

/-! # The queue of requests in a pipe

Requests are lines. What is read past the end of a line is kept for the next one, and what grows
past the longest line without ending is dropped. -/
namespace ModuleLink

def requestLimit : Nat := 512

def newline : UInt8 := 10

/-- The bytes up to and with the first newline, and those after it. -/
def splitLine? : Bytes → Option (Bytes × Bytes)
  | [] => none
  | b :: bs =>
    if b = newline then some ([b], bs) else (splitLine? bs).map fun (line, rest) => (b :: line, rest)

/-- A line, or none if the pipe has no more bytes for now; the bytes kept; the pipe afterwards. -/
structure Dequeued where
  result : Except TransportError (Option Bytes)
  pending : Bytes
  pipe : Source

/-- An empty read and one that would block both mean that nothing is there yet. -/
def nextRequest (pending : Bytes) (pipe : Source) : Dequeued :=
  match splitLine? pending with
  | some (line, rest) => ⟨.ok (some line), rest, pipe⟩
  | none =>
    match _ : pipe.read (.plain requestLimit) with
    | (.bytes [], pipe) => ⟨.ok none, pending, pipe⟩
    | (.bytes (b :: bs), pipe) =>
      let longer := pending ++ b :: bs
      nextRequest (if requestLimit < longer.length then [] else longer) pipe
    | (.failed cause, pipe) =>
      if _ : cause.kind = .interrupted then nextRequest pending pipe
      else if cause.kind = .wouldBlock then ⟨.ok none, pending, pipe⟩
      else ⟨.error (.accept cause), pending, pipe⟩
termination_by pipe.work
decreasing_by
  · exact Source.work_of_bytes ‹_›
  · exact Source.work_of_interrupted ‹_› ‹_›

end ModuleLink
