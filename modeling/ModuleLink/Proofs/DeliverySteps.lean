import ModuleLink.Proofs.SendSteps

/-! # What a delivery does, handler after handler

A message is prepared and then written to the router or to each of its handlers. The record of it
holds every write and every closing in the order in which they happened; without the record, only the
module that they leave is seen. -/
namespace ModuleLink

namespace SendEvent

def write? : SendEvent → Option (ConnectionId × Envelope × Except PeerError Unit)
  | .wrote id m result => some (id, m, result)
  | .closed _ => none

def result? : SendEvent → Option (Except PeerError Unit)
  | .wrote _ _ result => some result
  | .closed _ => none

def closing? : SendEvent → Option Closing
  | .wrote .. => none
  | .closed call => some call

end SendEvent

namespace SendAct

variable {α β : Type}

/-- What an act does to connections, from a module on. -/
def events (act : SendAct α) (x : ModuleContext) : List SendEvent := (act.run { sender := x }).2.events

theorem run_write (id : ConnectionId) (m : Envelope) (s : Sending) :
    (write id m).run s =
      match (ModuleContext.sendOn id m).run s.sender with
      | (result, x) => (result, ⟨x, s.events ++ [.wrote id m result]⟩) := rfl

theorem run_close (id : ConnectionId) (s : Sending) :
    (close id).run s =
      (.ok (s.sender.handleClosed id).1,
        ⟨(s.sender.handleClosed id).2, s.events ++ [.closed ⟨s.sender, id⟩]⟩) := rfl

/-- The record is only added to, and nothing depends on what it held before. -/
def Adds (act : SendAct α) : Prop :=
  ∀ s, act.run s =
    ((act.forget.run s.sender).1, ⟨(act.forget.run s.sender).2, s.events ++ act.events s.sender⟩)

end SendAct

namespace ModuleContext

/-- One handler is passed over, or written to; if it turns out to be gone it is torn down. -/
theorem run_deliver_cons (m : Envelope) (h : Handler) (hs : List Handler) (s : Sending) :
    (deliver m (h :: hs)).run s =
      match s.sender.liveConnection h with
      | none => (deliver m hs).run s
      | some id =>
        match (sendOn id (m.withIntent h.intent)).run s.sender with
        | (.ok (), y) =>
          (deliver m hs).run ⟨y, s.events ++ [.wrote id (m.withIntent h.intent) (.ok ())]⟩
        | (.error e, y) =>
          let wrote := s.events ++ [.wrote id (m.withIntent h.intent) (.error e)]
          if e.isBrokenPipe then
            if (y.handleClosed id).1 then
              (deliver m hs).run ⟨(y.handleClosed id).2, wrote ++ [.closed ⟨y, id⟩]⟩
            else (.error e, ⟨(y.handleClosed id).2, wrote ++ [.closed ⟨y, id⟩]⟩)
          else (.error e, ⟨y, wrote⟩) := by
  have got : (get : SendAct ModuleContext).run s = (.ok s.sender, s) := rfl
  rw [deliver, run_bind, got]
  dsimp only
  cases s.sender.liveConnection h with
  | none => rfl
  | some id =>
    dsimp only
    rw [run_bind, run_tryCatch, SendAct.run_write]
    rcases (sendOn id (m.withIntent h.intent)).run s.sender with ⟨e | _, y⟩
    · dsimp only
      cases e.isBrokenPipe with
      | false => rfl
      | true =>
        simp only [if_true]
        rw [run_bind, SendAct.run_close]
        rcases y.handleClosed id with ⟨_ | _, z⟩ <;> rfl
    · rfl

theorem deliver_adds (m : Envelope) (hs : List Handler) : (deliver m hs).Adds := by
  induction hs with
  | nil =>
    intro s
    show (Except.ok (), s) = (Except.ok (), Sending.mk s.sender (s.events ++ []))
    rw [List.append_nil]
  | cons h hs ih =>
    intro s
    simp only [SendAct.forget, SendAct.events, ExceptT.run_mk]
    rw [run_deliver_cons, run_deliver_cons]
    dsimp only
    cases s.sender.liveConnection h with
    | none => exact ih s
    | some id =>
      dsimp only
      rcases (sendOn id (m.withIntent h.intent)).run s.sender with ⟨e | _, y⟩
      · dsimp only
        cases e.isBrokenPipe with
        | false => rfl
        | true =>
          simp only [if_true]
          cases (y.handleClosed id).1 with
          | false => simp only [Bool.false_eq_true, if_false, List.append_assoc, List.nil_append]
          | true =>
            simp only [if_true]
            rw [ih ⟨(y.handleClosed id).2, s.events ++ _ ++ _⟩, ih ⟨(y.handleClosed id).2, [] ++ _ ++ _⟩]
            simp only [List.append_assoc, List.nil_append]
      · dsimp only
        rw [ih ⟨y, s.events ++ _⟩, ih ⟨y, [] ++ _⟩]
        simp only [List.append_assoc, List.nil_append]

/-- What a delivery does to connections: a write for each handler that can be reached, and a closing
behind each write that finds its other end gone. -/
theorem events_deliver_cons (m : Envelope) (h : Handler) (hs : List Handler) (x : ModuleContext) :
    (deliver m (h :: hs)).events x =
      match x.liveConnection h with
      | none => (deliver m hs).events x
      | some id =>
        match (sendOn id (m.withIntent h.intent)).run x with
        | (.ok (), y) => .wrote id (m.withIntent h.intent) (.ok ()) :: (deliver m hs).events y
        | (.error e, y) =>
          .wrote id (m.withIntent h.intent) (.error e) ::
            if e.isBrokenPipe then
              .closed ⟨y, id⟩ ::
                if (y.handleClosed id).1 then (deliver m hs).events (y.handleClosed id).2 else []
            else [] := by
  rw [SendAct.events, run_deliver_cons]
  dsimp only
  cases x.liveConnection h with
  | none => rfl
  | some id =>
    dsimp only
    rcases (sendOn id (m.withIntent h.intent)).run x with ⟨e | _, y⟩
    · dsimp only
      cases e.isBrokenPipe with
      | false => rfl
      | true =>
        simp only [if_true]
        cases (y.handleClosed id).1 with
        | false => rfl
        | true =>
          simp only [if_true]
          rw [deliver_adds]
          rfl
    · dsimp only
      rw [deliver_adds]
      rfl

theorem deliver_nil (m : Envelope) (x : ModuleContext) :
    (deliver m []).forget.run x = (.ok (), x) := rfl

/-- One handler is passed over, or written to; if it turns out to be gone it is torn down. -/
theorem deliver_cons (m : Envelope) (h : Handler) (hs : List Handler) (x : ModuleContext) :
    (deliver m (h :: hs)).forget.run x =
      match x.liveConnection h with
      | none => (deliver m hs).forget.run x
      | some id =>
        match (sendOn id (m.withIntent h.intent)).run x with
        | (.ok (), y) => (deliver m hs).forget.run y
        | (.error e, y) =>
          if e.isBrokenPipe = true ∧ (y.handleClosed id).1 = true then
            (deliver m hs).forget.run (y.handleClosed id).2
          else (.error e, if e.isBrokenPipe then (y.handleClosed id).2 else y) := by
  rw [SendAct.forget, ExceptT.run_mk, run_deliver_cons]
  dsimp only
  cases x.liveConnection h with
  | none => rfl
  | some id =>
    dsimp only
    rcases (sendOn id (m.withIntent h.intent)).run x with ⟨e | _, y⟩
    · dsimp only
      cases e.isBrokenPipe with
      | false => rfl
      | true =>
        simp only [if_true, true_and]
        cases (y.handleClosed id).1 with
        | false => rfl
        | true =>
          simp only [if_true]
          rw [deliver_adds]
          rfl
    · dsimp only
      rw [deliver_adds]
      rfl

theorem run_sendRecorded (q : SendRequest) (s : Sending) :
    (sendRecorded q).run s =
      match (prepareMessage q).run s.sender with
      | (.error e, y) => (.error e, { s with sender := y })
      | (.ok out, y) =>
        match (if out.message.deliversDirectly then deliver out.envelope out.message.handlers.reverse
          else SendAct.write out.router (out.envelope.withIntent out.message.id)).run
            { s with sender := y } with
        | (.error e, t) => (.error e, t)
        | (.ok (), t) => (.ok out.messageRef, t) := by
  have prepared : (liftM (prepareMessage q) : SendAct Outgoing).run s =
      (((prepareMessage q).run s.sender).1, { s with sender := ((prepareMessage q).run s.sender).2 }) :=
    rfl
  rw [sendRecorded, run_bind, prepared]
  rcases (prepareMessage q).run s.sender with ⟨_ | out, y⟩
  · rfl
  · dsimp only
    by_cases hd : out.message.deliversDirectly = true
    · rw [if_pos hd, if_pos hd, run_bind]
      rcases (deliver out.envelope out.message.handlers.reverse).run _ with ⟨_ | _, t⟩ <;> rfl
    · rw [if_neg hd, if_neg hd, run_bind]
      rcases (SendAct.write out.router (out.envelope.withIntent out.message.id)).run _ with ⟨_ | _, t⟩
      all_goals rfl

theorem run_sendMessage (q : SendRequest) (x : ModuleContext) :
    (sendMessage q).run x =
      match (prepareMessage q).run x with
      | (.error e, y) => (.error e, y)
      | (.ok out, y) =>
        match (if out.message.deliversDirectly then
            (deliver out.envelope out.message.handlers.reverse).forget
          else sendOn out.router (out.envelope.withIntent out.message.id)).run y with
        | (.error e, z) => (.error e, z)
        | (.ok (), z) => (.ok out.messageRef, z) := by
  rw [sendMessage, SendAct.forget, ExceptT.run_mk, run_sendRecorded]
  rcases (prepareMessage q).run x with ⟨_ | out, y⟩
  · rfl
  · dsimp only
    by_cases hd : out.message.deliversDirectly = true
    · rw [if_pos hd, if_pos hd, SendAct.forget, ExceptT.run_mk]
      rcases (deliver out.envelope out.message.handlers.reverse).run _ with ⟨_ | _, t⟩ <;> rfl
    · rw [if_neg hd, if_neg hd, SendAct.run_write]
      rcases (sendOn out.router (out.envelope.withIntent out.message.id)).run y with ⟨_ | _, z⟩
      all_goals rfl

theorem events_sendRecorded (q : SendRequest) (x : ModuleContext) :
    (sendRecorded q).events x =
      match (prepareMessage q).run x with
      | (.error _, _) => []
      | (.ok out, y) =>
        if out.message.deliversDirectly then
          (deliver out.envelope out.message.handlers.reverse).events y
        else
          [.wrote out.router (out.envelope.withIntent out.message.id)
            ((sendOn out.router (out.envelope.withIntent out.message.id)).run y).1] := by
  rw [SendAct.events, run_sendRecorded]
  rcases (prepareMessage q).run x with ⟨_ | out, y⟩
  · rfl
  · dsimp only
    by_cases hd : out.message.deliversDirectly = true
    · rw [if_pos hd, if_pos hd, SendAct.events]
      rcases (deliver out.envelope out.message.handlers.reverse).run _ with ⟨_ | _, t⟩ <;> rfl
    · rw [if_neg hd, if_neg hd, SendAct.run_write]
      rcases (sendOn out.router (out.envelope.withIntent out.message.id)).run y with ⟨_ | _, z⟩
      all_goals rfl

end ModuleContext

end ModuleLink
