import ModuleLink.ByteSources
import ModuleLink.Polling

/-! # Reading up to a deadline

A read with a deadline first waits until the stream can be read, with the time that is left, and fails
if it cannot be read by then. Each read waits anew; the stream is read however late it is then. -/
namespace ModuleLink

/-- What the system answers when it is asked to wait for so many milliseconds, or for ever. -/
abbrev Poll := Option Nat → PollAnswer

/-- The milliseconds that a wait asks for at this time. -/
def askedAt (deadline : Option Span) (now : Span) : Option Nat :=
  deadline.map fun d => pollMillis ⟨d.nanos - now.nanos⟩

/-- The answers to a wait, which asks anew each time. -/
def pollAnswers (deadline : Option Span) : Span → List Poll → List PollAnswer
  | _, [] => []
  | now, poll :: polls =>
    let answer := poll (askedAt deadline now)
    answer :: pollAnswers deadline ⟨now.nanos + answer.took.nanos⟩ polls

/-- The end of a time that begins now. This clock has no last instant. A machine's clock counts seconds
in 63 bits and stops a program that asks for an end past them, which is left out here. -/
def Span.fromNow (timeout : Option Span) (now : Span) : Option Span :=
  timeout.map fun t => ⟨now.nanos + t.nanos⟩

/-- The time that is left until a deadline. -/
def Span.until (deadline : Option Span) (now : Span) : Option Span :=
  deadline.map fun d => ⟨d.nanos - now.nanos⟩

/-- Waits for a time that begins now, or for ever. -/
def waitFor (timeout : Option Span) (now : Span) (polls : List Poll) : Wait :=
  let deadline := Span.fromNow timeout now
  waitReadable deadline now (pollAnswers deadline now polls)

/-- One read as it happens: the system's answers while it waits, and what the stream does when it can
be read. -/
structure Moment where
  /-- Time between the look at the clock and the wait. -/
  enters : Span := .zero
  polls : List Poll
  turn : Turn
  /-- Time that the stream takes for its answer. -/
  took : Span := .zero

/-- The wait of a read that begins now. -/
def Moment.wait (m : Moment) (deadline : Option Span) (now : Span) : Wait :=
  waitFor (Span.until deadline now) ⟨now.nanos + m.enters.nanos⟩ m.polls

/-- What becomes of a read that begins now, and when it is over; nothing while it waits. -/
def Moment.comesTo (m : Moment) (deadline : Option Span) (now : Span) : Option (Turn × Span) :=
  let wait := m.wait deadline now
  match wait.result with
  | none => none
  | some (.error cause) => some (.fail cause, wait.now)
  | some (.ok none) => some (.fail (.bare .timedOut), wait.now)
  | some (.ok (some _)) => some (m.turn, ⟨wait.now.nanos + m.took.nanos⟩)

/-- The reads that are made up to a deadline, one after the other: what becomes of each, and when it is
over. -/
def readScript (deadline : Option Span) : Span → List Moment → List (Turn × Span)
  | _, [] => []
  | now, m :: ms =>
    match m.comesTo deadline now with
    | none => []
    | some (turn, ending) => (turn, ending) :: readScript deadline ending ms

/-- The stream whose reads go by a script. Where nothing is left it has ended, for whoever reads has
waited for something to read. -/
def Source.scripted (s : Source) (turns : List Turn) : Source := { s with turns, exhaustion := .ended }

/-- A stream that is read until a deadline, and how much was read. -/
structure DeadlineReader where
  inner : Source
  deadline : Option Span
  now : Span
  consumed : Nat := 0

/-- One read into one or more buffers. The answer is missing while it waits. -/
def DeadlineReader.read (r : DeadlineReader) (m : Moment) (call : Call) :
    Option ReadAnswer × DeadlineReader :=
  let wait := m.wait r.deadline r.now
  match wait.result with
  | none => (none, r)
  | some (.error cause) => (some (.failed cause), { r with now := wait.now })
  | some (.ok none) => (some (.failed (.bare .timedOut)), { r with now := wait.now })
  | some (.ok (some _)) =>
    let (answer, inner) := (r.inner.scripted [m.turn]).read call
    let now : Span := ⟨wait.now.nanos + m.took.nanos⟩
    match answer with
    | .bytes got => (some answer, { r with inner, now, consumed := r.consumed + got.length })
    | .failed _ => (some answer, { r with inner, now })

end ModuleLink
