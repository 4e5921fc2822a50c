import ModuleLink.Proofs.RouterMail

/-! # Replies find the waits for them

While whole envelopes arrive on the router connection and no wait gives up inside one, a module
treats its mail as the moves of `Mail` say: the stream and the two queues always hold whole
envelopes, each in order of arrival. -/
namespace ModuleLink

namespace ModuleContext

/-- The mail of a module, as it lies in the stream of its router connection and in the queues. -/
structure Holds (x : ModuleContext) (router : ConnectionId) (b : Mail) : Prop where
  unread : ∃ c, x.connection? router = some c ∧
    c.incoming.unread = b.unread.flatMap Envelope.wire
  acceptable : ∀ m ∈ b.unread, m.Acceptable x.settings.limits
  pending : x.pendingReplies = b.pending
  replies : ∀ m ∈ b.pending, m.intent = queryReplyIntent
  inbound : x.inbound = b.inbound
  router : ∀ id, x.router = some id → id = router

variable {x y : ModuleContext} {router : ConnectionId} {b : Mail}

theorem Holds.setConnection (h : x.Holds router b) {d : Connection} {rest : List Envelope}
    (hd : d.incoming.unread = rest.flatMap Envelope.wire)
    (hr : ∀ m ∈ rest, m.Acceptable x.settings.limits) :
    (x.setConnection router d).Holds router { b with unread := rest } := by
  obtain ⟨c, hc, -⟩ := h.unread
  refine ⟨⟨d, connection?_setConnection_self hc d, hd⟩, hr, h.pending, h.replies, h.inbound, ?_⟩
  exact h.router

theorem Holds.handleClosed (h : x.Holds router b) (id : ConnectionId) :
    (x.handleClosed id).2.Holds router b := by
  obtain ⟨c, hc, hu⟩ := h.unread
  obtain ⟨d, hd, incoming⟩ := incoming_handleClosed x id hc
  refine ⟨⟨d, hd, incoming ▸ hu⟩, ?_, ?_, h.replies, ?_, ?_⟩
  · rw [settings_handleClosed]
    exact h.acceptable
  · rw [pendingReplies_handleClosed]
    exact h.pending
  · rw [inbound_handleClosed]
    exact h.inbound
  · intro other ho
    exact h.router other (router_of_handleClosed x id ho)

/-- Setting aside what was read moves the mail in the same way. -/
theorem Holds.afterSearch (h : x.Holds router b) {s : Connection.Search} {rest : List Envelope}
    (lead : List Envelope) (split : b.unread = s.passed ++ lead ++ rest)
    (hd : s.connection.incoming.unread = rest.flatMap Envelope.wire) :
    (x.afterSearch router s).Holds router (b.setAside router s.passed rest) := by
  have left : ∀ m ∈ rest, m.Acceptable x.settings.limits := by
    intro m hm
    exact h.acceptable m (split ▸ List.mem_append_right _ hm)
  have set := h.setConnection hd left
  refine ⟨set.unread, set.acceptable, ?_, ?_, ?_, set.router⟩
  · exact congrArg (· ++ ModuleLink.replies s.passed) set.pending
  · intro m hm
    rcases List.mem_append.mp hm with hm | hm
    · exact h.replies m hm
    · simpa using (List.mem_filter.mp hm).2
  · exact congrArg (· ++ (otherTraffic s.passed).map (router, ·)) set.inbound

private theorem notKept (h : x.Holds router b) {messageRef : Int32}
    (none : ∀ p ∈ x.pendingReplies, p.messageRef ≠ messageRef) :
    ∀ p ∈ b.pending, isReplyTo messageRef p = false := by
  intro p hp
  have := none p (h.pending ▸ hp)
  simp [isReplyTo, this]

/-- A search of the router connection, told by the mail. -/
theorem Holds.readReply (h : x.Holds router b) {c : Connection} (hc : x.connection? router = some c)
    {messageRef : Int32} (timeout : Option Span) (buffer : Option ReplyBuffer)
    (notKept : ∀ p ∈ b.pending, isReplyTo messageRef p = false)
    (whole : (c.search x.settings.limits messageRef buffer).last.stopsInside = false) :
    ∃ outcome b', b.Step router (.waits messageRef timeout buffer) outcome b' ∧
      .waited (x.readReply router c messageRef timeout buffer).1.result = outcome.answer ∧
      (x.readReply router c messageRef timeout buffer).2.Holds router b' := by
  obtain ⟨d, hd, hu⟩ := h.unread
  obtain rfl : c = d := Option.some.inj (hc.symm.trans hd)
  obtain ⟨taken, of⟩ := c.search_of x.settings.limits messageRef buffer
  generalize hs : c.search x.settings.limits messageRef buffer = s at whole of
  rw [readReply_eq x router c messageRef timeout buffer hs]
  have boundary : ∀ e, s.last.result = .error e → s.last.consumed = 0 := by
    intro e he
    simpa [Reception.stopsInside, he] using whole
  obtain ⟨m, rest, hr, split, left⟩ | ⟨e, rest, hr, split, left⟩ :=
    of.split h.acceptable hu boundary
  · have held := h.afterSearch [m] (by simp [split]) left
    refine ⟨.answered m, b.setAside router s.passed rest, ?_, ?_, ?_⟩
    · exact .answered (.arrived notKept split of.others (of.found m hr))
    · rw [hr]
      rfl
    · rw [if_neg (by simp [Reception.tearsDown, hr])]
      exact held
  · have none : b.unread = s.passed ++ [] ++ rest := by rw [List.append_nil, split]
    have held := h.afterSearch [] none left
    refine ⟨.ended (failure timeout e), b.setAside router s.passed rest, ?_, ?_, ?_⟩
    · exact .ended (.ended notKept split of.others) (failure_ne_nullReply timeout e)
    · rw [hr]
      rfl
    · dsimp only
      split
      · exact held.handleClosed router
      · exact held

/-- A wait, told by the mail. -/
theorem Holds.waitInto (h : x.Holds router b) (messageRef : Int32) (timeout : Option Span)
    (buffer : Option ReplyBuffer)
    (whole : ∀ r ∈ x.attempt (.waits messageRef timeout buffer), r.stopsInside = false) :
    ∃ outcome b', b.Step router (.waits messageRef timeout buffer) outcome b' ∧
      .waited (x.waitInto messageRef timeout buffer).1.result = outcome.answer ∧
      (x.waitInto messageRef timeout buffer).2.Holds router b' := by
  cases x.waitInto_ends messageRef timeout buffer with
  | kept before m after split others found pending ends =>
    rw [ends]
    have split' : b.pending = before ++ m :: after := h.pending ▸ split
    refine ⟨.answered m, { b with pending := before ++ after }, ?_, rfl, ?_⟩
    · refine .answered (.kept split' (fun p hp => ?_) ?_)
      · simp [isReplyTo, others p hp]
      · exact isReplyTo_iff.mpr ⟨h.replies m (split' ▸ by simp), found⟩
    · refine ⟨h.unread, h.acceptable, rfl, fun p hp => h.replies p ?_, h.inbound, h.router⟩
      rw [split']
      rcases List.mem_append.mp hp with hp | hp
      · exact List.mem_append_left _ hp
      · exact List.mem_append_right _ (List.mem_cons_of_mem _ hp)
  | refused e missing pending refusal ends =>
    rw [ends]
    have still : b.setAside router [] b.unread = b := by
      simp [Mail.setAside, ModuleLink.replies, otherTraffic]
    refine ⟨.ended e, b.setAside router [] b.unread, ?_, rfl, still.symm ▸ h⟩
    exact .ended (.ended (notKept h missing) rfl fun p hp => absurd hp List.not_mem_nil)
      (admission_error refusal)
  | searched id c taken missing pending admitted of ends =>
    rw [ends]
    obtain ⟨hr, hc⟩ := admission_ok admitted
    obtain rfl := h.router id hr
    exact h.readReply hc timeout buffer (notKept h missing)
      (whole _ (by simp [attempt, pending, admitted]))

private theorem Holds.arrives (h : x.Holds router b) {m : Envelope}
    (hm : m.Acceptable x.settings.limits) :
    ∃ outcome b', b.Step router (.arrives m.wire) outcome b' ∧
      (x.apply router (.arrives m.wire)).1 = outcome.answer ∧
      (x.apply router (.arrives m.wire)).2.Holds router b' := by
  obtain ⟨c, hc, hu⟩ := h.unread
  simp only [apply, hc]
  simp only [Connection.peerWrites]
  by_cases refused : c.incoming.exhaustion = .ended ∨ (m.wire ≠ [] ∧ !c.isOpen ∧ c.kind ≠ .pipe)
  · rw [if_pos refused]
    exact ⟨.lost m, b, .lost m, rfl, h.setConnection hu h.acceptable⟩
  · rw [if_neg refused]
    refine ⟨.arrived m, _, .arrives m, rfl, h.setConnection ?_ ?_⟩
    · simp [hu]
    · intro n hn
      rcases List.mem_append.mp hn with hn | hn
      · exact h.acceptable n hn
      · exact List.mem_singleton.mp hn ▸ hm

private theorem Holds.hangsUp (h : x.Holds router b) :
    ∃ outcome b', b.Step router .hangsUp outcome b' ∧
      (x.apply router .hangsUp).1 = outcome.answer ∧
      (x.apply router .hangsUp).2.Holds router b' := by
  obtain ⟨c, hc, hu⟩ := h.unread
  simp only [apply, hc]
  exact ⟨.hungUp, b, .hangsUp, rfl, h.setConnection hu h.acceptable⟩

private theorem Holds.takesInbound (h : x.Holds router b) :
    ∃ outcome b', b.Step router .takesInbound outcome b' ∧
      (x.apply router .takesInbound).1 = outcome.answer ∧
      (x.apply router .takesInbound).2.Holds router b' := by
  have hi := h.inbound
  simp only [apply, takeInbound]
  cases hx : x.inbound with
  | nil => exact ⟨.took none, b, .takesNothing (hi ▸ hx), rfl, h⟩
  | cons first rest =>
    refine ⟨.took (some first), _, .takes (hi ▸ hx), rfl, ?_⟩
    exact ⟨h.unread, h.acceptable, h.pending, h.replies, rfl, h.router⟩

/-- Every event is a move of the mail. -/
theorem Holds.apply (h : x.Holds router b) (event : RouterEvent)
    (arrivals : ∀ bytes, event = .arrives bytes →
      ∃ m : Envelope, m.Acceptable x.settings.limits ∧ bytes = m.wire)
    (whole : ∀ r ∈ x.attempt event, r.stopsInside = false) :
    ∃ outcome b', b.Step router event outcome b' ∧ (x.apply router event).1 = outcome.answer ∧
      (x.apply router event).2.Holds router b' := by
  cases event with
  | arrives bytes =>
    obtain ⟨m, hm, rfl⟩ := arrivals bytes rfl
    exact h.arrives hm
  | hangsUp => exact h.hangsUp
  | waits messageRef timeout buffer => exact h.waitInto messageRef timeout buffer whole
  | takesInbound => exact h.takesInbound

theorem settings_apply (x : ModuleContext) (router : ConnectionId) (event : RouterEvent) :
    (x.apply router event).2.settings = x.settings := by
  cases event with
  | arrives | hangsUp =>
    unfold apply
    dsimp only
    split <;> rfl
  | takesInbound =>
    unfold apply takeInbound
    dsimp only
    split <;> rfl
  | waits messageRef timeout buffer =>
    show (x.waitInto messageRef timeout buffer).2.settings = x.settings
    cases x.waitInto_ends messageRef timeout buffer with
    | kept before m after split others found pending ends => rw [ends]
    | refused e missing pending refusal ends => rw [ends]
    | searched id c taken missing pending admitted of ends =>
      rw [ends]
      exact settings_readReply x id c messageRef timeout buffer

def canRead (x : ModuleContext) (router : ConnectionId) (timeout : Option Span) : Prop :=
  ∃ c, x.admission timeout = .ok (router, c) ∧ ∀ turn ∈ c.incoming.turns, turn.goesOn

/-- A wait that can read takes the first reply on the stream, if none is pending, and sets aside what
comes before it. -/
theorem waitInto_takes {c : Connection} {messageRef : Int32} {timeout : Option Span}
    {ps : List Envelope} {m : Envelope} {rest : Bytes} (buffer : Option ReplyBuffer)
    (missing : (x.takePending messageRef).1 = none) (can : x.canRead router timeout)
    (hc : x.connection? router = some c)
    (others : ∀ p ∈ ps, p.Acceptable x.settings.limits ∧ isReplyTo messageRef p = false)
    (acceptable : m.Acceptable x.settings.limits) (reply : isReplyTo messageRef m)
    (unread : c.incoming.unread = ps.flatMap Envelope.wire ++ (m.wire ++ rest)) :
    ∃ s : Connection.Search,
      x.waitInto messageRef timeout buffer = (⟨finishReply m, s.buffer⟩, x.afterSearch router s) ∧
      s.passed = ps ∧ s.connection.incoming.unread = rest ∧
      s.connection = { c with incoming := s.connection.incoming } := by
  obtain ⟨c', ha, goesOn⟩ := can
  obtain rfl : c = c' := Option.some.inj (hc.symm.trans (admission_ok ha).2)
  obtain ⟨passed, found, left⟩ := c.search_takes buffer goesOn (fun p hp => (others p hp).1)
    (fun p hp => (others p hp).2) acceptable reply unread
  obtain ⟨taken, of⟩ := c.search_of x.settings.limits messageRef buffer
  have keeps : (c.search x.settings.limits messageRef buffer).last.tearsDown = false := by
    simp only [Reception.tearsDown, found]
  refine ⟨c.search x.settings.limits messageRef buffer, ?_, passed, left, of.connection⟩
  rw [waitInto_eq]
  generalize x.takePending messageRef = t at missing ⊢
  obtain ⟨taken, y⟩ := t
  obtain rfl : taken = none := missing
  simp only [ha, readReply_eq x router c messageRef timeout buffer rfl, found, keeps,
    Bool.false_eq_true, if_false]

/-- A wait that can read gets the first reply on the stream, if none is pending. -/
theorem waitInto_finds {c : Connection} {messageRef : Int32} {timeout : Option Span}
    {ps : List Envelope} {m : Envelope} {rest : Bytes} (buffer : Option ReplyBuffer)
    (missing : (x.takePending messageRef).1 = none) (can : x.canRead router timeout)
    (hc : x.connection? router = some c)
    (others : ∀ p ∈ ps, p.Acceptable x.settings.limits ∧ isReplyTo messageRef p = false)
    (acceptable : m.Acceptable x.settings.limits) (reply : isReplyTo messageRef m)
    (unread : c.incoming.unread = ps.flatMap Envelope.wire ++ (m.wire ++ rest)) :
    (x.waitInto messageRef timeout buffer).1.result = finishReply m := by
  obtain ⟨s, ends, -⟩ := waitInto_takes buffer missing can hc others acceptable reply unread
  rw [ends]

private theorem Holds.takePending (h : x.Holds router b) (messageRef : Int32) :
    (x.takePending messageRef).1 = b.pending.find? (isReplyTo messageRef) ∧
      (x.takePending messageRef).2.connections = x.connections := by
  obtain ⟨before, m, after, split, others, found, ht⟩ | ⟨none, ht⟩ := x.takePending_cases messageRef
  · rw [h.pending] at split
    rw [ht]
    refine ⟨(List.find?_eq_some_iff_append.mpr ⟨?_, before, after, split, ?_⟩).symm, rfl⟩
    · exact isReplyTo_iff.mpr ⟨h.replies m (by simp [split]), found⟩
    · intro p hp
      simp [isReplyTo, others p hp]
  · rw [ht]
    refine ⟨(List.find?_eq_none.mpr fun p hp => ?_).symm, rfl⟩
    simp [notKept h none p hp]

/-- A reply that was set aside is had without reading. -/
theorem Holds.kept (h : x.Holds router b) {messageRef : Int32} {m : Envelope}
    (timeout : Option Span) (buffer : Option ReplyBuffer)
    (found : b.pending.find? (isReplyTo messageRef) = some m) :
    (x.waitInto messageRef timeout buffer).1.result = finishReply m ∧
      (x.waitInto messageRef timeout buffer).2.connections = x.connections := by
  obtain ⟨first, same⟩ := h.takePending messageRef
  rw [found] at first
  rw [waitInto_eq]
  generalize x.takePending messageRef = t at first same ⊢
  obtain ⟨taken, y⟩ := t
  obtain rfl : taken = some m := first
  exact ⟨rfl, same⟩

/-- A reply that is there is had by a wait that can read. -/
theorem Holds.prompt (h : x.Holds router b) {messageRef : Int32} {timeout : Option Span}
    {m : Envelope} (buffer : Option ReplyBuffer) (can : x.canRead router timeout)
    (found : (b.pending ++ b.unread).find? (isReplyTo messageRef) = some m) :
    (x.waitInto messageRef timeout buffer).1.result = finishReply m := by
  rw [List.find?_append] at found
  cases hp : b.pending.find? (isReplyTo messageRef) with
  | some n =>
    rw [hp] at found
    obtain rfl : n = m := Option.some.inj found
    exact (h.kept timeout buffer hp).1
  | none =>
    rw [hp, Option.none_or] at found
    obtain ⟨reply, before, after, split, others⟩ := List.find?_eq_some_iff_append.mp found
    obtain ⟨c, hc, hu⟩ := h.unread
    have acceptable : ∀ p ∈ before ++ m :: after, p.Acceptable x.settings.limits :=
      split ▸ h.acceptable
    have stream : c.incoming.unread =
        before.flatMap Envelope.wire ++ (m.wire ++ after.flatMap Envelope.wire) := by
      rw [hu, split, List.flatMap_append, List.flatMap_cons]
    refine waitInto_finds buffer ((h.takePending messageRef).1.trans hp) can hc (fun p hp => ⟨?_, ?_⟩)
      (acceptable m (by simp)) reply stream
    · exact acceptable p (List.mem_append_left _ hp)
    · simpa using others p hp

/-- Every run is a run of the mail, with the same answers. So no envelope is lost or doubled, and
after any run a wait gets the first reply under its reference, among those set aside or on the
stream. -/
theorem after_matches {events : List RouterEvent} (h : x.Holds router b)
    (arrivals : ∀ bytes, .arrives bytes ∈ events →
      ∃ m : Envelope, m.Acceptable x.settings.limits ∧ bytes = m.wire)
    (whole : ∀ r ∈ x.attempts router events, r.stopsInside = false) :
    ∃ outcomes b', b.Run router events outcomes b' ∧
      (x.after router events).1 = outcomes.map RouterOutcome.answer ∧
      (x.after router events).2.Holds router b' ∧
      (b.all ++ outcomes.flatMap RouterOutcome.arrivals).Perm
        (b'.all ++ outcomes.flatMap RouterOutcome.deliveries) ∧
      (∀ messageRef timeout buffer m, b'.pending.find? (isReplyTo messageRef) = some m →
        ((x.after router events).2.waitInto messageRef timeout buffer).1.result = finishReply m ∧
        ((x.after router events).2.waitInto messageRef timeout buffer).2.connections =
          (x.after router events).2.connections) ∧
      ∀ messageRef timeout buffer m, (x.after router events).2.canRead router timeout →
        (b'.pending ++ b'.unread).find? (isReplyTo messageRef) = some m →
        ((x.after router events).2.waitInto messageRef timeout buffer).1.result = finishReply m := by
  have moves : ∃ outcomes b', b.Run router events outcomes b' ∧
      (x.after router events).1 = outcomes.map RouterOutcome.answer ∧
      (x.after router events).2.Holds router b' := by
    induction events generalizing x b with
    | nil => exact ⟨[], b, .nil, rfl, h⟩
    | cons event events ih =>
      obtain ⟨outcome, c, step, answer, held⟩ := h.apply event
        (fun bytes he => arrivals bytes (he ▸ List.mem_cons_self ..))
        (fun r hr => whole r (List.mem_append_left _ (by simpa using hr)))
      obtain ⟨outcomes, d, tail, answers, held'⟩ := ih held
        (fun bytes hb => by
          rw [settings_apply]
          exact arrivals bytes (List.mem_cons_of_mem _ hb))
        (fun r hr => whole r (List.mem_append_right _ hr))
      exact ⟨outcome :: outcomes, d, .cons step tail, by simp [after, answer, answers], held'⟩
  obtain ⟨outcomes, b', run, answers, held⟩ := moves
  refine ⟨outcomes, b', run, answers, held, run.perm, ?_, ?_⟩
  · intro messageRef timeout buffer m found
    exact held.kept timeout buffer found
  · intro messageRef timeout buffer m can found
    exact held.prompt buffer can found

def crossedReplies : List RouterEvent := [
  .arrives (Envelope.plain 3 noRef [1]).wire,
  .arrives (Envelope.plain queryReplyIntent 7 [2]).wire,
  .arrives (Envelope.plain queryReplyIntent 5 []).wire,
  .waits 5 none none, .takesInbound, .waits 7 none none]

theorem after_matches_crossedReplies :
    quiet.Holds 0 {} ∧
      ∃ outcomes b', ({} : Mail).Run 0 crossedReplies outcomes b' ∧
        (quiet.after 0 crossedReplies).1 = outcomes.map RouterOutcome.answer ∧
        (quiet.after 0 crossedReplies).2.Holds 0 b' ∧
        (outcomes.flatMap RouterOutcome.arrivals).Perm
          (b'.all ++ outcomes.flatMap RouterOutcome.deliveries) := by
  have holds : quiet.Holds 0 {} := by
    refine ⟨⟨_, rfl, rfl⟩, nofun, rfl, nofun, rfl, ?_⟩
    intro id h
    exact (Option.some.inj h).symm
  have arrivals : ∀ bytes, .arrives bytes ∈ crossedReplies →
      ∃ m : Envelope, m.Acceptable quiet.settings.limits ∧ bytes = m.wire := by
    intro bytes h
    simp only [crossedReplies, List.mem_cons, RouterEvent.arrives.injEq, reduceCtorEq,
      List.not_mem_nil, or_false] at h
    rcases h with rfl | rfl | rfl
    all_goals exact ⟨_, ⟨⟨by decide, by decide⟩, by decide, by decide, by decide⟩, rfl⟩
  obtain ⟨outcomes, b', run, answers, held, perm, -⟩ :=
    after_matches holds arrivals (by decide +kernel)
  exact ⟨holds, outcomes, b', run, answers, held, perm⟩

end ModuleContext

end ModuleLink
