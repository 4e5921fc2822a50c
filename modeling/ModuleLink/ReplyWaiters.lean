import ModuleLink.ReplyWaiting

/-! # Several threads that wait for replies

Whichever thread holds the read side of the router connection reads on behalf of all. A thread
looks for its reply before and after it gets the read side, receives one envelope, lets the read
side go, and only then returns the envelope or sets it aside. -/
namespace ModuleLink

/-- Where a waiting thread stands. -/
inductive WaitPhase
  | look
  | reach
  | lookAgain (router : ConnectionId)
  | receive (router : ConnectionId)
  | letGo (router : ConnectionId) (reception : Reception)
  | settle (router : ConnectionId) (reception : Reception)
  | done (result : Except PeerError Envelope)

structure Waiter where
  messageRef : Int32
  timeout : Option Span
  /-- Time until the deadline. -/
  left : Option Span
  buffer : Option ReplyBuffer := none
  phase : WaitPhase := .look

namespace Waiter

def start (messageRef : Int32) (timeout : Option Span) : Waiter :=
  { messageRef, timeout, left := timeout }

def result? (w : Waiter) : Option (Except PeerError Envelope) :=
  match w.phase with
  | .done r => some r
  | _ => none

/-- How long a thread sleeps while another one reads. -/
def busyPause : Span := .ofMillis 2

def pause (w : Waiter) : Waiter :=
  { w with left := w.left.map fun d => ⟨d.nanos - busyPause.nanos⟩, phase := .look }

def finish (w : Waiter) (r : Except PeerError Envelope) : Waiter := { w with phase := .done r }

def holdReader (x : ModuleContext) (id : ConnectionId) (held : Bool) : ModuleContext :=
  match x.connection? id with
  | some c => x.setConnection id { c with readHeld := held }
  | none => x

/-- One atomic step of a thread. -/
def step (w : Waiter) (x : ModuleContext) : Waiter × ModuleContext :=
  match w.phase with
  | .look =>
    match x.takePending w.messageRef with
    | (some m, y) => (w.finish (finishReply m), y)
    | (none, _) => ({ w with phase := .reach }, x)
  | .reach =>
    match x.router, x.router.bind x.connection? with
    | some router, some c =>
      if w.left = some .zero then (w.finish (.error (ModuleContext.waitedFor w.timeout)), x)
      else
        match c.tryReader with
        | .error e => (w.finish (.error (.transport e)), x)
        | .ok false => (w.pause, x)
        | .ok true => ({ w with phase := .lookAgain router }, holdReader x router true)
    | _, _ => (w.finish (.error .notConnected), x)
  | .lookAgain router =>
    match x.takePending w.messageRef with
    | (some m, y) => (w.finish (finishReply m), holdReader y router false)
    | (none, _) => ({ w with phase := .receive router }, x)
  | .receive router =>
    match x.connection? router with
    | some c =>
      let (r, buffer, d) := c.receiveReply x.settings.limits w.buffer
      ({ w with buffer, phase := .letGo router r }, x.setConnection router d)
    | none => (w.finish (.error .notConnected), x)
  | .letGo router r => ({ w with phase := .settle router r }, holdReader x router false)
  | .settle router r =>
    match r.result with
    | .ok m =>
      if isReplyTo w.messageRef m then (w.finish (finishReply m), x)
      else ({ w with phase := .look }, ModuleContext.setAside router x m)
    | .error e =>
      let (e, y) := x.failReception router w.timeout e r.consumed
      (w.finish (.error e), y)
  | .done _ => (w, x)

end Waiter

/-- Threads that wait on one module. -/
structure Waiters where
  context : ModuleContext
  threads : List Waiter

namespace Waiters

/-- One thread takes a step. -/
def step (s : Waiters) (i : Nat) : Waiters :=
  match s.threads[i]? with
  | some w =>
    let (w, context) := w.step s.context
    ⟨context, s.threads.set i w⟩
  | none => s

end Waiters

end ModuleLink
