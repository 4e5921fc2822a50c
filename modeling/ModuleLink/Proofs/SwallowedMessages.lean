import ModuleLink.Proofs.ContextOperations

/-! # Messages that go nowhere

A message that is sent without an error, and without a write that fails, is written whole to the
router or to a handler, unless every handler it still has is stranded on a closed connection. -/
namespace ModuleLink.ModuleContext

def sendWrites (x : ModuleContext) (q : SendRequest) : List (Except PeerError Unit) :=
  ((sendRecorded q).events x).filterMap SendEvent.result?

/-- Connections are as open as before, and what was written on them has only grown. -/
structure Grows (x y : ModuleContext) : Prop where
  isOpen : ∀ id, y.isOpen id = x.isOpen id
  written : ∀ id c, x.connection? id = some c →
    ∃ d more, y.connection? id = some d ∧ d.outgoing.written = c.outgoing.written ++ more

/-- The whole of an envelope was written on a connection in the meantime. -/
def WroteOn (x y : ModuleContext) (id : ConnectionId) (m : Envelope) : Prop :=
  ∃ c d before after, x.connection? id = some c ∧ y.connection? id = some d ∧
    d.outgoing.written = c.outgoing.written ++ (before ++ m.wire ++ after)

variable {x y z : ModuleContext}

theorem Grows.refl (x : ModuleContext) : x.Grows x :=
  ⟨fun _ => rfl, fun _ c hc => ⟨c, [], hc, (List.append_nil _).symm⟩⟩

theorem Grows.trans (h : x.Grows y) (h' : y.Grows z) : x.Grows z := by
  refine ⟨fun id => (h'.isOpen id).trans (h.isOpen id), fun id c hc => ?_⟩
  obtain ⟨d, more, hd, first⟩ := h.written id c hc
  obtain ⟨e, more', he, second⟩ := h'.written id d hd
  exact ⟨e, more ++ more', he, by rw [second, first, List.append_assoc]⟩

theorem WroteOn.later {id : ConnectionId} {m : Envelope} (h : x.WroteOn y id m) (h' : y.Grows z) :
    x.WroteOn z id m := by
  obtain ⟨c, d, before, after, hc, hd, written⟩ := h
  obtain ⟨e, more, he, grown⟩ := h'.written id d hd
  refine ⟨c, e, before, after ++ more, hc, he, ?_⟩
  rw [grown, written]
  simp only [List.append_assoc]

theorem WroteOn.earlier {id : ConnectionId} {m : Envelope} (h : x.Grows y) (h' : y.WroteOn z id m)
    (known : (x.connection? id).isSome = true) : x.WroteOn z id m := by
  obtain ⟨c, hc⟩ := Option.isSome_iff_exists.mp known
  obtain ⟨d, e, before, after, hd, he, written⟩ := h'
  obtain ⟨d', more, hd', grown⟩ := h.written id c hc
  obtain rfl := Option.some.inj (hd.symm.trans hd')
  refine ⟨c, e, more ++ before, after, hc, he, ?_⟩
  rw [written, grown]
  simp only [List.append_assoc]

theorem sendOn_writes {id : ConnectionId} {m : Envelope} (known : (x.connection? id).isSome = true)
    (h : (sendOn id m).run x = (.ok (), y)) : x.Grows y ∧ x.WroteOn y id m := by
  obtain ⟨c, hc⟩ := Option.isSome_iff_exists.mp known
  obtain ⟨sent, rfl⟩ := sendOn_ok hc h
  have written := Connection.send_ok sent
  have now := connection?_setConnection_self hc (c.send m).2
  refine ⟨⟨isOpen_setConnection_send hc m, fun other d hd => ?_⟩, c, _, [], [], hc, now, ?_⟩
  · by_cases ho : other = id
    · subst ho
      obtain rfl := Option.some.inj (hc.symm.trans hd)
      exact ⟨_, m.wire, now, written⟩
    · exact ⟨d, [], by rw [connection?_setConnection, if_neg ho, hd], (List.append_nil _).symm⟩
  · rw [written, List.nil_append, List.append_nil]

theorem isSome_of_liveConnection {h : Handler} {id : ConnectionId}
    (hl : x.liveConnection h = some id) : (x.connection? id).isSome = true := by
  unfold liveConnection at hl
  obtain ⟨-, ho⟩ := Option.filter_eq_some_iff.mp hl
  exact isSome_of_isOpen ho

theorem Grows.liveConnection (h : x.Grows y) (handler : Handler) :
    y.liveConnection handler = x.liveConnection handler := by
  simp only [ModuleContext.liveConnection]
  rw [funext h.isOpen]

/-- A delivery without a failed write reaches every handler on an open connection. -/
theorem deliver_writes (m : Envelope) (hs : List Handler) (x : ModuleContext)
    (writes : ∀ r ∈ ((deliver m hs).events x).filterMap SendEvent.result?, r = .ok ()) :
    ((deliver m hs).forget.run x).1 = .ok () ∧ x.Grows ((deliver m hs).forget.run x).2 ∧
      (∀ h ∈ hs, ∀ id, x.liveConnection h = some id →
        x.WroteOn ((deliver m hs).forget.run x).2 id (m.withIntent h.intent)) ∧
      ((∀ h ∈ hs, x.liveConnection h = none) → ((deliver m hs).forget.run x).2 = x) := by
  induction hs generalizing x with
  | nil =>
    rw [deliver_nil]
    exact ⟨rfl, .refl x, nofun, fun _ => rfl⟩
  | cons handler hs ih =>
    rw [deliver_cons]
    rw [events_deliver_cons] at writes
    cases hl : x.liveConnection handler with
    | none =>
      simp only [hl] at writes
      obtain ⟨ok, grows, reached, silent⟩ := ih x writes
      refine ⟨ok, grows, ?_, fun none => silent fun h hh => none h (List.mem_cons_of_mem _ hh)⟩
      intro h hh id hid
      rcases List.mem_cons.mp hh with rfl | hh
      · exact absurd (hl.symm.trans hid) nofun
      · exact reached h hh id hid
    | some id =>
      simp only [hl] at writes
      dsimp only
      rcases sent : (sendOn id (m.withIntent handler.intent)).run x with ⟨e | _, y⟩
      · rw [sent] at writes
        exact absurd (writes _ (List.mem_cons_self ..)) nofun
      · rw [sent] at writes
        obtain ⟨first, wrote⟩ := sendOn_writes (isSome_of_liveConnection hl) sent
        obtain ⟨ok, grows, reached, -⟩ := ih y fun r hr => writes r (List.mem_cons_of_mem _ hr)
        refine ⟨ok, first.trans grows, ?_, fun none => ?_⟩
        · -- Two handlers may share a connection; then both envelopes are on it, one after the other.
          intro h hh other hother
          rcases List.mem_cons.mp hh with rfl | hh
          · obtain rfl := Option.some.inj (hl.symm.trans hother)
            exact wrote.later grows
          · have reached := reached h hh other ((first.liveConnection h).trans hother)
            exact .earlier first reached (isSome_of_liveConnection hother)
        · exact absurd (hl.symm.trans (none handler (List.mem_cons_self ..))) nofun

/-- Where a message goes, and with which intent: to the router, or to its handlers on open
connections. -/
def destinations (x : ModuleContext) (m : Message) : List (ConnectionId × Int32) :=
  if m.deliversDirectly then
    m.handlers.filterMap fun h => (x.liveConnection h).map (·, h.intent)
  else x.router.toList.map (·, m.id)

/-- The whole envelope was written to one of the destinations of its message. -/
def Reaches (x y : ModuleContext) (out : Outgoing) : Prop :=
  ∃ d ∈ x.destinations out.message, x.WroteOn y d.1 (out.envelope.withIntent d.2)

def OnlyOn (these : ConnectionId → Prop) (m : Message) : Prop :=
  (∃ h ∈ m.handlers, ∃ id, h.connection = some id ∧ these id) ∧
    ∀ h ∈ m.handlers, ∀ id, h.connection = some id → these id

theorem mem_of_message? {name : String} {m : Message} (h : x.message? name = some m) :
    m ∈ x.messages :=
  List.mem_of_find?_eq_some h

/-- Among the handlers of a message none is on an open connection exactly if all are stranded. -/
theorem Standing.none_live_iff {stranded : ConnectionId → Prop} (h : x.Standing stranded)
    {m : Message} (hm : m ∈ x.messages) (listed : m.handlers ≠ []) :
    (∀ handler ∈ m.handlers, x.liveConnection handler = none) ↔ OnlyOn stranded m := by
  have closed : ∀ handler ∈ m.handlers, ∀ id, handler.connection = some id →
      (x.liveConnection handler = none ↔ stranded id) := by
    intro handler hh id hc
    simp only [liveConnection]
    rw [hc, Option.filter_some]
    constructor
    · intro silent
      rcases h.handlers m hm handler hh id hc with tabled | dead
      · refine (h.live id tabled).resolve_left fun live => ?_
        rw [live] at silent
        cases silent
      · exact dead
    · intro dead
      rw [(h.dead id dead).2]
      rfl
  constructor
  · intro silent
    have all : ∀ handler ∈ m.handlers, ∀ id, handler.connection = some id → stranded id :=
      fun handler hh id hc => (closed handler hh id hc).mp (silent handler hh)
    obtain ⟨handler, hh, attached⟩ := h.attached m hm listed
    obtain ⟨id, hc⟩ := Option.ne_none_iff_exists'.mp attached
    exact ⟨⟨handler, hh, id, hc, all handler hh id hc⟩, all⟩
  · rintro ⟨-, all⟩ handler hh
    cases hc : handler.connection with
    | none => simp [liveConnection, hc]
    | some id => exact (closed handler hh id hc).mpr (all handler hh id hc)

theorem sendWrites_of_prepared {q : SendRequest} {out : Outgoing}
    (prepared : (prepareMessage q).run x = (.ok out, y)) :
    x.sendWrites q =
      if out.message.deliversDirectly then
        ((deliver out.envelope out.message.handlers.reverse).events y).filterMap SendEvent.result?
      else [((sendOn out.router (out.envelope.withIntent out.message.id)).run y).1] := by
  rw [sendWrites, events_sendRecorded, prepared]
  dsimp only
  split <;> rfl

theorem sendMessage_of_writes {q : SendRequest} {out : Outgoing}
    (prepared : (prepareMessage q).run x = (.ok out, y))
    (writes : ∀ r ∈ x.sendWrites q, r = .ok ()) :
    (sendMessage q).run x = (.ok out.messageRef,
      if out.message.deliversDirectly then
        ((deliver out.envelope out.message.handlers.reverse).forget.run y).2
      else ((sendOn out.router (out.envelope.withIntent out.message.id)).run y).2) := by
  rw [sendWrites_of_prepared prepared] at writes
  rw [run_sendMessage, prepared]
  dsimp only
  by_cases hd : out.message.deliversDirectly = true
  · rw [if_pos hd] at writes
    obtain ⟨ok, -⟩ := deliver_writes out.envelope out.message.handlers.reverse y writes
    simp only [hd, if_true]
    generalize (deliver out.envelope out.message.handlers.reverse).forget.run y = sent at ok ⊢
    obtain ⟨result, z⟩ := sent
    obtain rfl : result = .ok () := ok
    rfl
  · rw [if_neg hd] at writes
    have ok := writes _ (List.mem_singleton.mpr rfl)
    simp only [hd, Bool.false_eq_true, if_false]
    generalize (sendOn out.router (out.envelope.withIntent out.message.id)).run y = sent at ok ⊢
    obtain ⟨result, z⟩ := sent
    obtain rfl : result = .ok () := ok
    rfl

/-- A message for its handlers reaches one of them, or changes no connection. -/
theorem reaches_directly {q : SendRequest} {out : Outgoing}
    (prepared : (prepareMessage q).run x = (.ok out, y))
    (writes : ∀ r ∈ x.sendWrites q, r = .ok ()) (hd : out.message.deliversDirectly = true) :
    (¬ x.Reaches ((sendMessage q).run x).2 out ↔
        ∀ handler ∈ out.message.handlers, x.liveConnection handler = none) ∧
      (¬ x.Reaches ((sendMessage q).run x).2 out →
        ((sendMessage q).run x).2.connections = x.connections) := by
  obtain ⟨next, hn⟩ := prepareMessage_prepares q x
  rw [prepared] at hn
  obtain rfl : y = { x with nextSendRef := next } := hn
  rw [sendMessage_of_writes prepared writes, if_pos hd]
  rw [sendWrites_of_prepared prepared, if_pos hd] at writes
  obtain ⟨-, -, reached, silent⟩ :=
    deliver_writes out.envelope out.message.handlers.reverse _ writes
  generalize ((deliver out.envelope out.message.handlers.reverse).forget.run _).2 = z at reached silent ⊢
  have wrote : ∀ handler ∈ out.message.handlers, ∀ id, x.liveConnection handler = some id →
      x.WroteOn z id (out.envelope.withIntent handler.intent) :=
    fun handler hh => reached handler (List.mem_reverse.mpr hh)
  have unreached : ¬ x.Reaches z out → ∀ handler ∈ out.message.handlers,
      x.liveConnection handler = none := by
    intro missed handler hh
    cases hl : x.liveConnection handler with
    | none => rfl
    | some id =>
      refine absurd ⟨(id, handler.intent), ?_, wrote handler hh id hl⟩ missed
      simp only [destinations]
      rw [if_pos hd]
      exact List.mem_filterMap.mpr ⟨handler, hh, by rw [hl]; rfl⟩
  refine ⟨⟨unreached, ?_⟩, fun missed => ?_⟩
  · rintro none ⟨d, hd', -⟩
    simp only [destinations] at hd'
    rw [if_pos hd] at hd'
    obtain ⟨handler, hh, live⟩ := List.mem_filterMap.mp hd'
    rw [none handler hh] at live
    cases live
  · have same := silent fun handler hh => unreached missed handler (List.mem_reverse.mp hh)
    exact (congrArg ModuleContext.connections same).trans rfl

theorem reaches_router {q : SendRequest} {out : Outgoing}
    (prepared : (prepareMessage q).run x = (.ok out, y))
    (writes : ∀ r ∈ x.sendWrites q, r = .ok ()) (hd : ¬ out.message.deliversDirectly = true)
    (known : (x.connection? out.router).isSome = true) :
    x.Reaches ((sendMessage q).run x).2 out := by
  obtain ⟨next, hn⟩ := prepareMessage_prepares q x
  rw [prepared] at hn
  obtain rfl : y = { x with nextSendRef := next } := hn
  rw [sendMessage_of_writes prepared writes, if_neg hd]
  rw [sendWrites_of_prepared prepared, if_neg hd] at writes
  have ok := writes _ (List.mem_singleton.mpr rfl)
  have known' : ({ x with nextSendRef := next }.connection? out.router).isSome = true := known
  generalize hw : { x with nextSendRef := next } = w at ok known' ⊢
  rcases hs : (sendOn out.router (out.envelope.withIntent out.message.id)).run w with ⟨result, z⟩
  rw [hs] at ok
  obtain rfl : result = .ok () := ok
  have wrote := (sendOn_writes known' hs).2
  rw [← hw] at wrote
  refine ⟨(out.router, out.message.id), ?_, wrote⟩
  simp only [destinations]
  rw [if_neg hd, (prepareMessage_ok prepared).1]
  exact List.mem_singleton.mpr rfl

theorem prepared_of_sendMessage {q : SendRequest} {r : Int32}
    (sent : (sendMessage q).run x = (.ok r, z)) :
    ∃ out y, (prepareMessage q).run x = (.ok out, y) := by
  rw [run_sendMessage] at sent
  rcases hp : (prepareMessage q).run x with ⟨e | out, y⟩
  · rw [hp] at sent
    cases sent
  · exact ⟨out, y, rfl⟩

/-- After any operations of a module, a message that is sent without an error and without a write
that fails reaches no destination exactly if it is for its handlers, and they are all on connections
that were closed without detaching them. It changes no connection then. -/
theorem swallowed_iff {ops : List Operation} {q : SendRequest} {r : Int32} (bare : x.Bare)
    (allowed : x.AllowedAll ops) (sent : (sendMessage q).run (x.performAll ops) = (.ok r, z))
    (writes : ∀ w ∈ (x.performAll ops).sendWrites q, w = .ok ()) :
    ∃ out y, (prepareMessage q).run (x.performAll ops) = (.ok out, y) ∧
      (¬ (x.performAll ops).Reaches z out ↔
        out.message.deliversDirectly = true ∧ OnlyOn (x.StrandsAll ops) out.message) ∧
      (¬ (x.performAll ops).Reaches z out → z.connections = (x.performAll ops).connections) := by
  have standing : (x.performAll ops).Standing (x.StrandsAll ops) :=
    (bare.standing.performAll allowed).congr fun _ => iff_of_eq (false_or _)
  generalize x.performAll ops = w at sent writes standing ⊢
  obtain ⟨out, y, prepared⟩ := prepared_of_sendMessage sent
  obtain ⟨routed, named⟩ := prepareMessage_ok prepared
  obtain rfl : ((sendMessage q).run w).2 = z := by rw [sent]
  refine ⟨out, y, prepared, ?_⟩
  by_cases hd : out.message.deliversDirectly = true
  · obtain ⟨unreached, silent⟩ := reaches_directly prepared writes hd
    have listed : out.message.handlers ≠ [] := by
      simpa [Message.deliversDirectly] using (of_decide_eq_true hd).2
    refine ⟨?_, silent⟩
    rw [unreached, standing.none_live_iff (mem_of_message? named) listed, and_iff_right hd]
  · have known := standing.known (standing.listed _ routed)
    have reached := reaches_router prepared writes hd known
    exact ⟨iff_of_false (not_not_intro reached) fun direct => hd direct.1,
      fun missed => absurd reached missed⟩

def attended (name : String) : Connection where
  name
  kind := .unix
  peer := name

/-- A message with a handler on the router's connection and one on another, and then another router
connection. -/
def twoHandlers : List Operation := [
  .opens (attended "router"), .attachRouter 0, .opens (attended "peer"), .addConnection 1,
  .register ⟨"goal", 7, .query, none, none, true, []⟩, .addHandler "goal" 0 3,
  .addHandler "goal" 1 4, .opens (attended "other router"), .attachRouter 2]

theorem swallowed_iff_twoHandlers :
    ∃ r z out y, (sendMessage { message := "goal" }).run (({} : ModuleContext).performAll twoHandlers)
        = (.ok r, z) ∧
      (prepareMessage { message := "goal" }).run (({} : ModuleContext).performAll twoHandlers)
        = (.ok out, y) ∧
      (¬ (({} : ModuleContext).performAll twoHandlers).Reaches z out ↔
        out.message.deliversDirectly = true ∧
          OnlyOn (({} : ModuleContext).StrandsAll twoHandlers) out.message) := by
  have bare : ({} : ModuleContext).Bare := ⟨rfl, rfl, nofun⟩
  have allowed : ({} : ModuleContext).AllowedAll twoHandlers := by decide
  have ok : ((sendMessage { message := "goal" }).run
      (({} : ModuleContext).performAll twoHandlers)).1 = .ok 1 := by decide +kernel
  have writes : ∀ w ∈ (({} : ModuleContext).performAll twoHandlers).sendWrites
      { message := "goal" }, w = .ok () := by decide +kernel
  obtain ⟨out, y, prepared, iff, -⟩ := swallowed_iff bare allowed (Prod.ext ok rfl) writes
  exact ⟨_, _, out, y, Prod.ext ok rfl, prepared, iff⟩

def oneHandler : List Operation := [
  .opens (attended "router"), .attachRouter 0,
  .register ⟨"goal", 7, .query, none, none, true, []⟩, .addHandler "goal" 0 3,
  .opens (attended "other router"), .attachRouter 1]

/-- The message is sent, no write fails, and nothing is written on any connection. -/
theorem swallows_oneHandler :
    ({} : ModuleContext).Bare ∧ ({} : ModuleContext).AllowedAll oneHandler ∧
      ((sendMessage { message := "goal" }).run (({} : ModuleContext).performAll oneHandler)).1 =
        .ok 1 ∧
      (({} : ModuleContext).performAll oneHandler).sendWrites { message := "goal" } = [] ∧
      ((sendMessage { message := "goal" }).run
        (({} : ModuleContext).performAll oneHandler)).2.connections.map (·.outgoing.written) =
          [[], []] := by
  exact ⟨⟨rfl, rfl, nofun⟩, by decide +kernel⟩

end ModuleLink.ModuleContext
