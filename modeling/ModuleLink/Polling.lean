import ModuleLink.Spans
import ModuleLink.SystemErrors

/-! # Waiting until something can be read

The operating system waits for whole milliseconds and may return early. A wait goes on with the
time that is left until a descriptor is ready or the system has waited in vain. -/
namespace ModuleLink

/-- How one call of the operating system's wait ends, and how long it took. -/
inductive PollAnswer
  | interrupted (took : Span)
  /-- Some descriptors have events; those marked can be read. -/
  | woken (took : Span) (ready : List Bool)
  /-- No descriptor had an event in the time asked for. -/
  | expired (took : Span)
  | failed (took : Span) (cause : SystemError)
  deriving DecidableEq, Repr

def PollAnswer.took : PollAnswer → Span
  | interrupted t | woken t _ | expired t | failed t _ => t

/-- Longest wait that the system can be asked for, in milliseconds. -/
def longestPoll : Nat := 2147483647

/-- The milliseconds to ask for when so much time is left, rounded up. -/
def pollMillis (left : Span) : Nat := min left.ceilMillis longestPoll

/-- A wait as it happened: what the system was asked for each time, when the wait ended, and the
ready descriptor, or none if there was none in time. The result is missing while the wait goes on. -/
structure Wait where
  asked : List (Option Nat)
  now : Span
  result : Option (Except SystemError (Option Nat))

/-- Waits until a point in time, or for ever. -/
def waitReadable (deadline : Option Span) (now : Span) : List PollAnswer → Wait
  | [] => ⟨[], now, none⟩
  | answer :: answers =>
    let asked := deadline.map fun d => pollMillis ⟨d.nanos - now.nanos⟩
    let later : Span := ⟨now.nanos + answer.took.nanos⟩
    let goOn := waitReadable deadline later answers
    match answer with
    | .failed _ cause => ⟨[asked], later, some (.error cause)⟩
    | .expired _ => ⟨[asked], later, some (.ok none)⟩
    | .interrupted _ => { goOn with asked := asked :: goOn.asked }
    | .woken _ ready =>
      match ready.findIdx? id with
      | some index => ⟨[asked], later, some (.ok (some index))⟩
      | none => { goOn with asked := asked :: goOn.asked }

end ModuleLink
