import ModuleLink.Proofs.WaitOutcomes

/-! # What happens around the router connection

The other end writes and leaves; the module waits for replies and takes other traffic. A run is any
sequence of such events, and each event is answered. -/
namespace ModuleLink

inductive RouterEvent
  | arrives (bytes : Bytes)
  | hangsUp
  | waits (messageRef : Int32) (timeout : Option Span) (buffer : Option ReplyBuffer)
  | takesInbound

inductive RouterAnswer
  /-- Whether the other end could write. -/
  | delivered (whole : Bool)
  | hungUp
  | waited (result : Except PeerError Envelope)
  | took (first : Option (ConnectionId × Envelope))

/-- An attempt that gave up after part of an envelope. -/
def Reception.stopsInside (r : Reception) : Bool :=
  match r.result with
  | .error _ => 0 < r.consumed
  | .ok _ => false

namespace ModuleContext

/-- One event around a connection. -/
def apply (router : ConnectionId) (x : ModuleContext) : RouterEvent → RouterAnswer × ModuleContext
  | .arrives bytes =>
    match x.connection? router with
    | some c => (.delivered (c.peerWrites bytes).1, x.setConnection router (c.peerWrites bytes).2)
    | none => (.delivered false, x)
  | .hangsUp =>
    match x.connection? router with
    | some c => (.hungUp, x.setConnection router c.peerStopsWriting)
    | none => (.hungUp, x)
  | .waits messageRef timeout buffer =>
    let (w, y) := x.waitInto messageRef timeout buffer
    (.waited w.result, y)
  | .takesInbound =>
    let (first, y) := x.takeInbound
    (.took first, y)

/-- The attempt to receive that ends a wait, if the wait reads at all. -/
def attempt (x : ModuleContext) : RouterEvent → Option Reception
  | .waits messageRef timeout buffer =>
    match (x.takePending messageRef).1, x.admission timeout with
    | none, .ok (_, c) => some (c.search x.settings.limits messageRef buffer).last
    | _, _ => none
  | _ => none

def attempts (router : ConnectionId) (x : ModuleContext) : List RouterEvent → List Reception
  | [] => []
  | event :: events => (x.attempt event).toList ++ (x.apply router event).2.attempts router events

def after (router : ConnectionId) (x : ModuleContext) :
    List RouterEvent → List RouterAnswer × ModuleContext
  | [] => ([], x)
  | event :: events =>
    let (answer, y) := x.apply router event
    let (answers, z) := y.after router events
    (answer :: answers, z)

/-- A wait reads nothing, and then changes the pending replies alone, or searches the router
connection. -/
theorem waitInto_cases (x : ModuleContext) (messageRef : Int32) (timeout : Option Span)
    (buffer : Option ReplyBuffer) :
    (x.attempt (.waits messageRef timeout buffer) = none ∧
      ∃ kept, (x.waitInto messageRef timeout buffer).2 = { x with pendingReplies := kept }) ∨
    ∃ router c s taken, x.router = some router ∧ x.connection? router = some c ∧
      Connection.Search.Of s c x.settings.limits messageRef taken ∧
      x.attempt (.waits messageRef timeout buffer) = some s.last ∧
      (x.waitInto messageRef timeout buffer).2 =
        if s.last.tearsDown then ((x.afterSearch router s).handleClosed router).2
        else x.afterSearch router s := by
  cases x.waitInto_ends messageRef timeout buffer with
  | kept before m after split others found pending ends =>
    exact .inl ⟨by simp only [attempt, pending], before ++ after, by rw [ends]⟩
  | refused e missing pending refusal ends =>
    exact .inl ⟨by simp only [attempt, pending, refusal], x.pendingReplies, by rw [ends]⟩
  | searched router c taken missing pending admitted of ends =>
    obtain ⟨hr, hc⟩ := admission_ok admitted
    refine .inr ⟨router, c, _, taken, hr, hc, of, by simp only [attempt, pending, admitted], ?_⟩
    rw [ends]
    exact congrArg Prod.snd (readReply_eq x router c messageRef timeout buffer rfl)

def quiet : ModuleContext :=
  ({ connections := [{ name := "router", kind := .unix, peer := "router" }] } :
    ModuleContext).attachRouter 0

end ModuleContext

end ModuleLink
