import ModuleLink.DeadlineReads
import ModuleLink.ReplyWaiters

/-! # A waiting thread and the clock

The deadline of a thread that waits for a reply is set when the wait begins. The thread looks at the
clock each time before it reads, and reads with this deadline. Time passes between its steps and while
it reads; meanwhile other threads may do anything to the module. -/
namespace ModuleLink

structure TimedWaiter where
  waiter : Waiter
  deadline : Option Span
  now : Span
  context : ModuleContext

/-- What happens next: time passes, as while the thread sleeps; others do something; or the thread takes
a step, and these are its reads if it reads. -/
inductive ClockEvent
  | passes (time : Span)
  | others (act : ModuleContext → ModuleContext)
  | steps (reads : List Moment)

namespace TimedWaiter

def start (messageRef : Int32) (timeout : Option Span) (now : Span) (context : ModuleContext) :
    TimedWaiter where
  waiter := .start messageRef timeout
  deadline := Span.fromNow timeout now
  now
  context

/-- The thread as it sees the clock. -/
def looking (t : TimedWaiter) : Waiter := { t.waiter with left := Span.until t.deadline t.now }

/-- When so many reads of a script that begins now are over; nothing if it has fewer. -/
def overAt (now : Span) (script : List (Turn × Span)) : Nat → Option Span
  | 0 => some now
  | n + 1 => (script[n]?).map Prod.snd

/-- One step. A thread that receives and has to wait for longer than its reads are known stays where it
is. -/
def step (t : TimedWaiter) (reads : List Moment) : TimedWaiter :=
  match t.waiter.phase with
  | .receive router =>
    match t.context.connection? router with
    | none =>
      let (waiter, context) := t.looking.step t.context
      { t with waiter, context }
    | some c =>
      let script := readScript t.deadline t.now reads
      let incoming := c.incoming.scripted (script.map Prod.fst)
      let (waiter, context) := t.looking.step (t.context.setConnection router { c with incoming })
      let made := (context.connection? router).elim 0 (·.incoming.calls.length) - c.incoming.calls.length
      match overAt t.now script made with
      | none => t
      | some now => { t with waiter, context, now }
  | _ =>
    let (waiter, context) := t.looking.step t.context
    { t with waiter, context }

def happen (t : TimedWaiter) : ClockEvent → TimedWaiter
  | .passes time => { t with now := ⟨t.now.nanos + time.nanos⟩ }
  | .others act => { t with context := act t.context }
  | .steps reads => t.step reads

def live (t : TimedWaiter) (events : List ClockEvent) : TimedWaiter := events.foldl happen t

end TimedWaiter

end ModuleLink
