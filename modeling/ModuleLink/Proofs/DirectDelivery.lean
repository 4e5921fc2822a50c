import ModuleLink.Proofs.HandlerDestinations
import ModuleLink.Proofs.SwallowedMessages

/-! # Deliveries with broken connections

A message goes to its handlers one after the other. A connection that turns out to be broken is
attempted once, torn down and passed over from then on; every other handler gets its envelope as if
the broken connections were not there. -/
namespace ModuleLink

namespace Connection

def sendAll (c : Connection) : List Envelope → Connection
  | [] => c
  | m :: ms => (c.send m).2.sendAll ms

def TakesAll (c : Connection) : List Envelope → Prop
  | [] => True
  | m :: ms => (c.send m).1 = .ok () ∧ (c.send m).2.TakesAll ms

/-- The connection is broken and says so at the first of these envelopes, or it takes them all. -/
def Answers (c : Connection) (broken : Bool) (ms : List Envelope) : Prop :=
  if broken then ∀ m ∈ ms.head?, (c.send m).1 = .error (.transport .brokenPipe) else c.TakesAll ms

instance decidableTakesAll (c : Connection) : ∀ ms, Decidable (c.TakesAll ms)
  | [] => .isTrue trivial
  | m :: ms =>
    have := decidableTakesAll (c.send m).2 ms
    inferInstanceAs (Decidable ((c.send m).1 = .ok () ∧ (c.send m).2.TakesAll ms))

instance (c : Connection) (broken : Bool) (ms : List Envelope) : Decidable (c.Answers broken ms) :=
  inferInstanceAs (Decidable (ite ..))

theorem isOpen_sendAll (c : Connection) (ms : List Envelope) : (c.sendAll ms).isOpen = c.isOpen := by
  induction ms generalizing c with
  | nil => rfl
  | cons m ms ih =>
    rw [sendAll, ih, send_eq]

theorem TakesAll.written {c : Connection} {ms : List Envelope} (h : c.TakesAll ms) :
    (c.sendAll ms).outgoing.written = c.outgoing.written ++ ms.flatMap Envelope.wire := by
  induction ms generalizing c with
  | nil => exact (List.append_nil _).symm
  | cons m ms ih =>
    obtain ⟨sent, rest⟩ := h
    rw [sendAll, ih rest, send_ok sent, List.flatMap_cons, List.append_assoc]

end Connection

namespace ModuleContext

def foreseenWrite (broken : ConnectionId → Bool) (m : Envelope) (d : ConnectionId × Int32) :
    ConnectionId × Envelope × Except PeerError Unit :=
  (d.1, m.withIntent d.2,
    if broken d.1 then .error (.frame (.transport .brokenPipe)) else .ok ())

/-- The handlers that can be reached are on connections of the table, none of them the router's, and
each connection takes all its envelopes or is broken. -/
structure Foresees (x : ModuleContext) (m : Envelope) (hs : List Handler)
    (broken : ConnectionId → Bool) : Prop where
  tracked : ∀ d ∈ x.reached hs, d.1 ∈ x.table
  apart : ∀ d ∈ x.reached hs, x.router ≠ some d.1
  answers : ∀ id c, x.connection? id = some c →
    c.Answers (broken id) (envelopesFor m id (x.reached hs))

/-- What a delivery does to a module: in the order of the handlers each of them gets its envelope, but
a broken connection fails one write and is torn down, and nothing else happens. -/
structure Isolates (x : ModuleContext) (m : Envelope) (hs : List Handler)
    (broken : ConnectionId → Bool) (events : List SendEvent) (z : ModuleContext) : Prop where
  writes : events.filterMap SendEvent.write? =
    (attemptsTo broken (x.reached hs)).map (foreseenWrite broken m)
  closings : (events.filterMap SendEvent.closing?).map Closing.id =
    ((attemptsTo broken (x.reached hs)).filter (broken ·.1)).map Prod.fst
  connection : ∀ id, z.connection? id = (x.connection? id).map fun c =>
    let d := c.sendAll (envelopesFor m id (attemptsTo broken (x.reached hs)))
    if breaks broken (x.reached hs) id then d.invalidate.2 else d
  table : z.table = x.table.filter fun id => !breaks broken (x.reached hs) id
  messages : z.messages = x.messages.map (·.detachFrom (breaks broken (x.reached hs)))
  others : z = { x with connections := z.connections, table := z.table, messages := z.messages }

def afterBreak (x : ModuleContext) (id : ConnectionId) (d : Connection) : ModuleContext :=
  ((x.setConnection id d).handleClosed id).2

section Delivery

variable {x y z : ModuleContext} {m : Envelope} {h : Handler} {hs : List Handler}
variable {id : ConnectionId} {c : Connection} {broken : ConnectionId → Bool}
variable {events : List SendEvent}

theorem Isolates.refl (x : ModuleContext) (m : Envelope) (broken : ConnectionId → Bool) :
    x.Isolates m [] broken [] x := by
  have whole : breaks broken (x.reached []) = fun _ => false := funext fun _ => Bool.and_false _
  refine ⟨rfl, rfl, fun i => ?_, ?_, ?_, rfl⟩
  · rw [whole]
    exact Option.map_id'.symm
  · rw [whole]
    exact (List.filter_eq_self.mpr fun _ _ => rfl).symm
  · rw [whole]
    exact (List.map_id'' Message.detachFrom_nothing _).symm

theorem Isolates.passes (hl : x.liveConnection h = none) (rest : x.Isolates m hs broken events z) :
    x.Isolates m (h :: hs) broken events z := by
  obtain ⟨writes, closings, connection, table, messages, others⟩ := rest
  rw [← reached_cons_none hl] at writes closings connection table messages
  exact ⟨writes, closings, connection, table, messages, others⟩

theorem Isolates.serves (hl : x.liveConnection h = some id) (hc : x.connection? id = some c)
    (works : broken id = false)
    (rest : (x.setConnection id (c.send (m.withIntent h.intent)).2).Isolates m hs broken events z) :
    x.Isolates m (h :: hs) broken (.wrote id (m.withIntent h.intent) (.ok ()) :: events) z := by
  obtain ⟨writes, closings, connection, table, messages, others⟩ := rest
  rw [reached_congr (isOpen_setConnection_send hc _)] at writes closings connection table messages
  have breaks_eq : breaks broken ((id, h.intent) :: x.reached hs) = breaks broken (x.reached hs) :=
    breaks_cons_works works
  have attempts_eq : attemptsTo broken ((id, h.intent) :: x.reached hs) =
      (id, h.intent) :: attemptsTo broken (x.reached hs) := attemptsTo_cons_works works
  rw [← reached_cons_some hl] at breaks_eq attempts_eq
  refine ⟨?_, ?_, fun i => ?_, ?_, ?_, others⟩
  · rw [attempts_eq, List.map_cons, ← writes, foreseenWrite, works]
    rfl
  · rw [attempts_eq, List.filter_cons_of_neg (by simp [works]), ← closings]
    rfl
  · rw [connection, connection?_setConnection, attempts_eq, breaks_eq, envelopesFor_cons]
    by_cases hi : i = id
    · subst hi
      rw [if_pos rfl, if_pos rfl, hc]
      rfl
    · rw [if_neg hi, if_neg (Ne.symm hi)]
  · rw [breaks_eq]
    exact table
  · rw [breaks_eq]
    exact messages

theorem run_sendOn_of_broken {n : Envelope} (hc : x.connection? id = some c)
    (refused : (c.send n).1 = .error (.transport .brokenPipe)) :
    (sendOn id n).run x =
      (.error (.frame (.transport .brokenPipe)), x.setConnection id (c.send n).2) := by
  rw [run_sendOn_of_some hc, refused]
  rfl

theorem handleClosed_setConnection (tracked : id ∈ x.table) (d : Connection) :
    (x.setConnection id d).handleClosed id = (true, x.afterBreak id d) := by
  have listed : id ∈ (x.setConnection id d).table := tracked
  exact Prod.ext (by rw [handleClosed_of_mem listed]) rfl

theorem connection?_afterBreak (hc : x.connection? id = some c) (tracked : id ∈ x.table)
    (d : Connection) (i : ConnectionId) :
    (x.afterBreak id d).connection? i = if i = id then some d.invalidate.2 else x.connection? i := by
  have listed : id ∈ (x.setConnection id d).table := tracked
  rw [afterBreak, connection?_handleClosed _ id listed, connection?_setConnection_self hc,
    connection?_setConnection]
  by_cases hi : i = id
  · rw [if_pos hi, if_pos hi]
    rfl
  · rw [if_neg hi, if_neg hi, if_neg hi]

theorem reached_afterBreak (hc : x.connection? id = some c) (tracked : id ∈ x.table) (n : Envelope)
    (hs : List Handler) :
    (x.afterBreak id (c.send n).2).reached hs = (x.reached hs).filter fun e => e.1 ≠ id := by
  have listed : id ∈ (x.setConnection id (c.send n).2).table := tracked
  refine reached_of_closed (fun i => ?_) hs
  rw [afterBreak, isOpen_handleClosed _ id listed, isOpen_setConnection_send hc]

theorem afterBreak_eq (tracked : id ∈ x.table) (apart : x.router ≠ some id) (d : Connection) :
    x.afterBreak id d = { x with
      connections := (x.afterBreak id d).connections
      table := x.table.filter (· ≠ id)
      messages := x.messages.map (·.detachAll id) } := by
  have listed : id ∈ (x.setConnection id d).table := tracked
  have unrouted : (x.setConnection id d).router ≠ some id := apart
  rw [afterBreak, handleClosed_of_mem listed]
  simp only [if_neg unrouted, detachAll]
  rw [invalidate_eq]
  rfl

/-- A handler on a broken connection costs one write, and its connection is torn down. -/
theorem Isolates.tearsDown (hl : x.liveConnection h = some id) (hc : x.connection? id = some c)
    (tracked : id ∈ x.table) (apart : x.router ≠ some id) (fails : broken id = true)
    (rest : (x.afterBreak id (c.send (m.withIntent h.intent)).2).Isolates m hs broken events z) :
    x.Isolates m (h :: hs) broken
      (.wrote id (m.withIntent h.intent) (.error (.frame (.transport .brokenPipe))) ::
        .closed ⟨x.setConnection id (c.send (m.withIntent h.intent)).2, id⟩ :: events) z := by
  obtain ⟨writes, closings, connection, table, messages, others⟩ := rest
  rw [reached_afterBreak hc tracked] at writes closings connection table messages
  have breaks_at : ∀ i, breaks broken (x.reached (h :: hs)) i =
      (decide (i = id) || breaks broken ((x.reached hs).filter fun e => e.1 ≠ id) i) := by
    rw [reached_cons_some hl]
    exact breaks_cons_broken fails
  have attempts_eq : attemptsTo broken (x.reached (h :: hs)) =
      (id, h.intent) :: attemptsTo broken ((x.reached hs).filter fun e => e.1 ≠ id) := by
    rw [reached_cons_some hl]
    exact attemptsTo_cons_broken fails
  refine ⟨?_, ?_, fun i => ?_, ?_, ?_, ?_⟩
  · rw [attempts_eq, List.map_cons, ← writes, foreseenWrite, fails]
    rfl
  · rw [attempts_eq, List.filter_cons_of_pos (by simp [fails]), List.map_cons, ← closings]
    rfl
  · rw [connection, connection?_afterBreak hc tracked, attempts_eq, breaks_at, envelopesFor_cons]
    by_cases hi : i = id
    · subst hi
      rw [attemptsTo_filter_ne, envelopesFor_filter_self, breaks_filter_self, if_pos rfl, if_pos rfl,
        hc, decide_eq_true rfl]
      rfl
    · rw [if_neg hi, if_neg (Ne.symm hi), decide_eq_false hi, Bool.false_or]
  · rw [table, afterBreak_eq tracked apart, List.filter_filter]
    refine List.filter_congr fun i _ => ?_
    simp [breaks_at, Bool.and_comm]
  · rw [funext breaks_at, messages, afterBreak_eq tracked apart, List.map_map]
    exact List.map_congr_left fun n _ => n.detachFrom_detachAll id _
  · rw [others, afterBreak_eq tracked apart]

theorem Foresees.passes (hl : x.liveConnection h = none) (foreseen : x.Foresees m (h :: hs) broken) :
    x.Foresees m hs broken := by
  obtain ⟨tracked, apart, answers⟩ := foreseen
  rw [reached_cons_none hl] at tracked apart answers
  exact ⟨tracked, apart, answers⟩

/-- What the connection of the first handler answers, and what the other connections do. -/
theorem Foresees.answer (foreseen : x.Foresees m (h :: hs) broken) (hl : x.liveConnection h = some id)
    (hc : x.connection? id = some c) :
    c.Answers (broken id) (m.withIntent h.intent :: envelopesFor m id (x.reached hs)) ∧
      ∀ i d, i ≠ id → x.connection? i = some d →
        d.Answers (broken i) (envelopesFor m i (x.reached hs)) := by
  constructor
  · have first := foreseen.answers id c hc
    rwa [reached_cons_some hl, envelopesFor_cons, if_pos rfl] at first
  · intro i d hi hd
    have other := foreseen.answers i d hd
    rwa [reached_cons_some hl, envelopesFor_cons, if_neg (Ne.symm hi)] at other

theorem Foresees.serves (foreseen : x.Foresees m (h :: hs) broken) (hl : x.liveConnection h = some id)
    (hc : x.connection? id = some c) (works : broken id = false) :
    (c.send (m.withIntent h.intent)).1 = .ok () ∧
      (x.setConnection id (c.send (m.withIntent h.intent)).2).Foresees m hs broken := by
  obtain ⟨first, others⟩ := foreseen.answer hl hc
  rw [works] at first
  obtain ⟨sent, takes⟩ := first
  have same := reached_congr (isOpen_setConnection_send hc (m.withIntent h.intent)) hs
  have listed : ∀ d ∈ x.reached hs, d ∈ x.reached (h :: hs) :=
    fun d hd => reached_cons_some hl hs ▸ List.mem_cons_of_mem _ hd
  refine ⟨sent, ?_, ?_, fun i d hd => ?_⟩
  · exact same ▸ fun d hd => foreseen.tracked d (listed d hd)
  · exact same ▸ fun d hd => foreseen.apart d (listed d hd)
  · rw [same]
    rw [connection?_setConnection] at hd
    by_cases hi : i = id
    · rw [if_pos hi, hc] at hd
      rw [hi, ← Option.some.inj hd, works]
      exact takes
    · rw [if_neg hi] at hd
      exact others i d hi hd

theorem Foresees.tearsDown (foreseen : x.Foresees m (h :: hs) broken)
    (hl : x.liveConnection h = some id) (hc : x.connection? id = some c)
    (fails : broken id = true) :
    (c.send (m.withIntent h.intent)).1 = .error (.transport .brokenPipe) ∧
      id ∈ x.table ∧ x.router ≠ some id ∧
      (x.afterBreak id (c.send (m.withIntent h.intent)).2).Foresees m hs broken := by
  obtain ⟨first, others⟩ := foreseen.answer hl hc
  rw [fails] at first
  have here : (id, h.intent) ∈ x.reached (h :: hs) :=
    reached_cons_some hl hs ▸ List.mem_cons_self ..
  have tracked : id ∈ x.table := foreseen.tracked _ here
  have apart : x.router ≠ some id := foreseen.apart _ here
  have left := reached_afterBreak hc tracked (m.withIntent h.intent) hs
  have listed : ∀ d ∈ (x.reached hs).filter (fun e => e.1 ≠ id), d ∈ x.reached (h :: hs) ∧ d.1 ≠ id := by
    intro d hd
    obtain ⟨hd, hne⟩ := List.mem_filter.mp hd
    exact ⟨reached_cons_some hl hs ▸ List.mem_cons_of_mem _ hd, of_decide_eq_true hne⟩
  refine ⟨first _ rfl, tracked, apart, ?_, ?_, fun i d hd => ?_⟩
  · rw [left, afterBreak_eq tracked apart]
    intro d hd
    obtain ⟨hd, hne⟩ := listed d hd
    exact List.mem_filter.mpr ⟨foreseen.tracked d hd, decide_eq_true hne⟩
  · rw [left, afterBreak_eq tracked apart]
    exact fun d hd => foreseen.apart d (listed d hd).1
  · rw [left]
    by_cases hi : i = id
    · rw [hi, envelopesFor_filter_self]
      cases broken id
      · trivial
      · exact nofun
    · rw [connection?_afterBreak hc tracked, if_neg hi] at hd
      rw [envelopesFor_filter_ne m hi]
      exact others i d hi hd

/-- A delivery serves every handler but those on broken connections, and ends well. -/
theorem deliver_isolates {hs : List Handler} (foreseen : x.Foresees m hs broken) :
    ∃ z, (deliver m hs).forget.run x = (.ok (), z) ∧
      x.Isolates m hs broken ((deliver m hs).events x) z := by
  induction hs generalizing x with
  | nil => exact ⟨x, rfl, .refl x m broken⟩
  | cons h hs ih =>
    rw [deliver_cons, events_deliver_cons]
    cases hl : x.liveConnection h with
    | none =>
      obtain ⟨z, ran, rest⟩ := ih (foreseen.passes hl)
      exact ⟨z, ran, rest.passes hl⟩
    | some id =>
      obtain ⟨c, hc⟩ := Option.isSome_iff_exists.mp (isSome_of_liveConnection hl)
      dsimp only
      cases hb : broken id with
      | false =>
        obtain ⟨sent, foreseen⟩ := foreseen.serves hl hc hb
        obtain ⟨z, ran, rest⟩ := ih foreseen
        rw [run_sendOn_of_some hc, sent]
        exact ⟨z, ran, rest.serves hl hc hb⟩
      | true =>
        obtain ⟨refused, tracked, apart, foreseen⟩ := foreseen.tearsDown hl hc hb
        obtain ⟨z, ran, rest⟩ := ih foreseen
        simp only [run_sendOn_of_broken hc refused, handleClosed_setConnection tracked]
        exact ⟨z, ran, rest.tearsDown hl hc tracked apart hb⟩

theorem Isolates.isOpen (h : x.Isolates m hs broken events z) (id : ConnectionId) :
    z.isOpen id = (x.isOpen id && !breaks broken (x.reached hs) id) := by
  simp only [ModuleContext.isOpen]
  rw [h.connection]
  cases x.connection? id with
  | none => rfl
  | some c =>
    cases breaks broken (x.reached hs) id
    · simp [Connection.isOpen_sendAll]
    · simp [Connection.invalidate]

theorem Isolates.written (h : x.Isolates m hs broken events z) (hc : x.connection? id = some c)
    (works : broken id = false) (takes : c.TakesAll (envelopesFor m id (x.reached hs))) :
    ∃ d, z.connection? id = some d ∧ d.outgoing.written =
      c.outgoing.written ++ (envelopesFor m id (x.reached hs)).flatMap Envelope.wire := by
  refine ⟨_, ?_, takes.written⟩
  rw [h.connection, hc, Option.map_some, envelopesFor_attemptsTo, works, breaks, works]
  rfl

theorem Isolates.untouched (h : x.Isolates m hs broken events z) (apart : ∀ d ∈ x.reached hs, d.1 ≠ id) :
    z.connection? id = x.connection? id := by
  have none : (x.reached hs).filter (·.1 = id) = [] := by
    simpa using apart
  have whole : breaks broken (x.reached hs) id = false := by
    simpa [breaks] using fun _ => apart
  rw [h.connection, whole, envelopesFor_attemptsTo, envelopesFor, none]
  cases broken id <;> exact Option.map_id'

/-- What a message for its handlers does when their connections work or are broken: it goes to every
one of them, the last one registered first, except that a broken connection is attempted once; the
broken connections are torn down, and nothing is written to the router. -/
theorem sendMessage_isolates {q : SendRequest} {router : ConnectionId} {message : Message}
    {dispatch : Int32} (routed : x.router = some router) (named : x.message? q.message = some message)
    (referred : x.dispatchRef q = .ok dispatch)
    (built : (x.draft message q dispatch (x.takeRef q).1).build = .ok m)
    (direct : message.direct = true) (listed : message.handlers ≠ [])
    (tracked : ∀ h ∈ message.handlers, ∀ id, x.liveConnection h = some id → id ∈ x.table)
    (apart : ∀ h ∈ message.handlers, h.connection ≠ some router)
    (answers : ∀ id c, x.connection? id = some c →
      c.Answers (broken id) (envelopesFor m id (x.reached message.handlers.reverse))) :
    ∃ z events, (sendRecorded q).run { sender := x } = (.ok (x.takeRef q).1, ⟨z, events⟩) ∧
      (sendMessage q).run x = (.ok (x.takeRef q).1, z) ∧
      (x.takeRef q).2.Isolates m message.handlers.reverse broken events z ∧
      (∀ id, z.isOpen id =
        (x.isOpen id && !breaks broken (x.reached message.handlers.reverse) id)) ∧
      (∀ id c, x.connection? id = some c → broken id = false →
        ∃ d, z.connection? id = some d ∧ d.outgoing.written = c.outgoing.written ++
          (envelopesFor m id (x.reached message.handlers.reverse)).flatMap Envelope.wire) ∧
      z.connection? router = x.connection? router := by
  have reach : ∀ d ∈ x.reached message.handlers.reverse, ∃ h ∈ message.handlers,
      x.liveConnection h = some d.1 := by
    intro d hd
    obtain ⟨h, hh, live⟩ := mem_reached hd
    exact ⟨h, List.mem_reverse.mp hh, live⟩
  have unrouted : ∀ d ∈ x.reached message.handlers.reverse, d.1 ≠ router := by
    rintro d hd rfl
    obtain ⟨h, hh, live⟩ := reach d hd
    exact apart h hh (Option.filter_eq_some_iff.mp live).1
  have foreseen : x.Foresees m message.handlers.reverse broken := by
    refine ⟨fun d hd => ?_, fun d hd => ?_, answers⟩
    · obtain ⟨h, hh, live⟩ := reach d hd
      exact tracked h hh d.1 live
    · rw [routed]
      exact fun e => unrouted d hd (Option.some.inj e).symm
  have prepared := prepareMessage_of_build routed named referred built
  have directly : message.deliversDirectly = true := decide_eq_true ⟨direct, listed⟩
  obtain ⟨next, taken⟩ : ∃ next, (x.takeRef q).2 = { x with nextSendRef := next } :=
    ⟨_, x.takeRef_eq q⟩
  obtain ⟨z, ran, isolated⟩ := deliver_isolates (x := { x with nextSendRef := next })
    ⟨foreseen.tracked, foreseen.apart, foreseen.answers⟩
  let events := (deliver m message.handlers.reverse).events { x with nextSendRef := next }
  have recorded : (sendRecorded q).run { sender := x } = (.ok (x.takeRef q).1, ⟨z, events⟩) := by
    rw [run_sendRecorded, prepared]
    simp only [directly, if_true]
    rw [taken, deliver_adds, ran]
    rfl
  refine ⟨z, events, recorded, ?_, taken ▸ isolated, isolated.isOpen, fun id c hc works => ?_, ?_⟩
  · rw [sendMessage, SendAct.forget, ExceptT.run_mk, recorded]
  · have takes := answers id c hc
    rw [works] at takes
    exact isolated.written hc works takes
  · exact isolated.untouched unrouted

end Delivery

/-- A message with handlers on a shared connection and on another one, whose other end is gone, and
one that is detached; the other message has a handler on the second connection alone. -/
def sharedPeers : ModuleContext :=
  ({} : ModuleContext).performAll [
    .opens (attended "router"), .attachRouter 0, .opens (attended "peer"), .addConnection 1,
    .opens { attended "gone" with outgoing := { gone := true } }, .addConnection 2,
    .opens (attended "left"), .addConnection 3,
    .register ⟨"goal", 7, .goal, none, none, true, []⟩, .addHandler "goal" 1 3,
    .addHandler "goal" 2 4, .addHandler "goal" 3 5, .addHandler "goal" 1 6, .addHandler "goal" 2 8,
    .register ⟨"inform", 9, .inform, none, none, true, []⟩, .addHandler "inform" 2 1,
    .handleClosed 3]

def sharedGoal : Message where
  name := "goal"
  id := 7
  messageClass := .goal
  direct := true
  handlers := [⟨some 1, 3⟩, ⟨some 2, 4⟩, ⟨none, 5⟩, ⟨some 1, 6⟩, ⟨some 2, 8⟩]

def sharedEnvelope : Envelope := ⟨⟨0, 0, -1, -1, 0x22000002, -1, 1⟩, [], []⟩

theorem sendMessage_isolates_sharedPeers :
    ∃ z events,
      (sendRecorded { message := "goal" }).run { sender := sharedPeers } = (.ok 1, ⟨z, events⟩) ∧
      (sendMessage { message := "goal" }).run sharedPeers = (.ok 1, z) ∧
      events.filterMap SendEvent.write? =
        [(2, sharedEnvelope.withIntent 8, .error (.frame (.transport .brokenPipe))),
          (1, sharedEnvelope.withIntent 6, .ok ()), (1, sharedEnvelope.withIntent 3, .ok ())] ∧
      z.table = [1, 0] ∧
      z.messages.map (·.handlers) =
        [[⟨some 1, 3⟩, ⟨none, 4⟩, ⟨none, 5⟩, ⟨some 1, 6⟩, ⟨none, 8⟩], []] ∧
      (∃ d, z.connection? 1 = some d ∧ d.outgoing.written =
        (sharedEnvelope.withIntent 6).wire ++ (sharedEnvelope.withIntent 3).wire) ∧
      z.connection? 0 = sharedPeers.connection? 0 := by
  have known : ∀ id c, sharedPeers.connection? id = some c → id < 4 :=
    fun id c hc => (List.getElem?_eq_some_iff.mp hc).1
  have answers : ∀ id < 4, ∀ c ∈ sharedPeers.connection? id, c.Answers (id = 2)
      (envelopesFor sharedEnvelope id (sharedPeers.reached sharedGoal.handlers.reverse)) := by
    decide +kernel
  have tracked : ∀ h ∈ sharedGoal.handlers, ∀ id ∈ sharedPeers.liveConnection h,
      id ∈ sharedPeers.table := by decide +kernel
  have routed : sharedPeers.router = some 0 := by decide +kernel
  have referred : sharedPeers.dispatchRef { message := "goal" } = .ok noRef := rfl
  have built : (sharedPeers.draft sharedGoal { message := "goal" } noRef
      (sharedPeers.takeRef { message := "goal" }).1).build = .ok sharedEnvelope := by decide +kernel
  obtain ⟨z, events, recorded, ran, isolated, -, written, router⟩ :=
    sendMessage_isolates routed (by rfl) referred built rfl (by decide) tracked (by decide)
      fun id c hc => answers id (known id c hc) c hc
  have peer : sharedPeers.connection? 1 = some (attended "peer") := by decide +kernel
  obtain ⟨d, hd, taken⟩ := written 1 _ peer rfl
  have attempted : attemptsTo (· = 2) ((sharedPeers.takeRef { message := "goal" }).2.reached
      sharedGoal.handlers.reverse) = [(2, 8), (1, 6), (1, 3)] := by decide +kernel
  refine ⟨z, events, recorded, ran, isolated.writes.trans ?_, ?_, ?_, ⟨d, hd, taken.trans ?_⟩, router⟩
  · rw [attempted]
    rfl
  · rw [isolated.table]
    decide +kernel
  · rw [isolated.messages]
    decide +kernel
  · decide +kernel

end ModuleContext

end ModuleLink
