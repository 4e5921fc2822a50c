import ModuleLink.ReplyWaiting
import ModuleLink.Proofs.EnvelopeReception

/-! # What a wait for a reply does

A wait ends with a pending reply, or without reading, or after a search of the router connection.
A search takes whole envelopes off the connection, none of them the reply, and then makes the one
attempt that ends it. What it passed over is set aside in the order of arrival. -/
namespace ModuleLink

theorem receiveWithReply_eq (s : Source) (limits : Limits) (b : ReplyBuffer) :
    (receiveWithReply s limits b).1 = (receive s limits).1 ∧
      (receiveWithReply s limits b).2.2 = (receive s limits).2 := by
  simp only [receiveWithReply, receive]
  split
  · exact ⟨rfl, rfl⟩
  · split
    · exact ⟨rfl, rfl⟩
    · rw [b.lendTo_room, receiveBody]
      generalize receiveSegments _ _ _ = r
      obtain ⟨_ | _, t⟩ := r <;> exact ⟨rfl, rfl⟩

namespace Connection

theorem receiveReply_attempt {c d : Connection} {limits : Limits} {b b' : Option ReplyBuffer}
    {r : Reception} (h : c.receiveReply limits b = (r, b', d)) :
    ∃ taken, c.incoming.Yields taken d.incoming ∧ Attempt limits taken r.result ∧
      r.consumed = taken.length ∧ d = { c with incoming := d.incoming } := by
  obtain ⟨taken, hy, ha⟩ : ∃ taken,
      c.incoming.Yields taken (ModuleLink.receive c.incoming limits).2 ∧
        Attempt limits taken (ModuleLink.receive c.incoming limits).1 := receive_attempt rfl
  refine ⟨taken, ?_⟩
  cases b with
  | none =>
    obtain ⟨rfl, -, rfl⟩ := by simpa only [receiveReply, Prod.mk.injEq] using h.symm
    exact ⟨hy, ha, hy.length, rfl⟩
  | some b =>
    obtain ⟨hr, ht⟩ := receiveWithReply_eq c.incoming limits b
    obtain ⟨rfl, -, rfl⟩ := by simpa only [receiveReply, Prod.mk.injEq] using h.symm
    dsimp only
    rw [hr, ht]
    exact ⟨hy, ha, hy.length, rfl⟩

theorem receiveReply_goesOn {c : Connection} {limits : Limits} {m : Envelope} {rest : Bytes}
    (b : Option ReplyBuffer) (hs : ∀ turn ∈ c.incoming.turns, turn.goesOn)
    (hm : m.Acceptable limits) (hu : c.incoming.unread = m.wire ++ rest) :
    (c.receiveReply limits b).1.result = .ok m := by
  have h := receive_goesOn hs hm hu
  cases b with
  | none => exact h
  | some b => exact (receiveWithReply_eq c.incoming limits b).1.trans h

/-- A search of a connection, and the bytes that its last attempt took. -/
structure Search.Of (s : Search) (c : Connection) (limits : Limits) (messageRef : Int32)
    (taken : Bytes) : Prop where
  yields : c.incoming.Yields (s.passed.flatMap Envelope.wire ++ taken) s.connection.incoming
  acceptable : ∀ m ∈ s.passed, m.Acceptable limits
  others : ∀ m ∈ s.passed, isReplyTo messageRef m = false
  attempt : Attempt limits taken s.last.result
  consumed : s.last.consumed = taken.length
  found : ∀ m, s.last.result = .ok m → isReplyTo messageRef m
  connection : s.connection = { c with incoming := s.connection.incoming }

theorem search_eq (c : Connection) (limits : Limits) (messageRef : Int32)
    (buffer : Option ReplyBuffer) {r : Reception} {buffer' : Option ReplyBuffer} {d : Connection}
    (h : c.receiveReply limits buffer = (r, buffer', d)) :
    c.search limits messageRef buffer =
      match r.result with
      | .error _ => ⟨[], r, buffer', d⟩
      | .ok m =>
        if isReplyTo messageRef m then ⟨[], r, buffer', d⟩
        else
          let rest := d.search limits messageRef buffer'
          { rest with passed := m :: rest.passed } := by
  rw [search]
  split
  rename_i r' b' d' h'
  obtain ⟨rfl, rfl, rfl⟩ := by simpa only [Prod.mk.injEq] using h'.symm.trans h
  split
  · rename_i e he
    rw [he]
  · rename_i m hm
    rw [hm]

theorem search_of (c : Connection) (limits : Limits) (messageRef : Int32)
    (buffer : Option ReplyBuffer) :
    ∃ taken, (c.search limits messageRef buffer).Of c limits messageRef taken := by
  -- Every envelope that is passed over costs the stream some of its work.
  induction hw : c.incoming.work using Nat.strongRecOn generalizing c buffer with
  | _ work ih =>
    rcases hr : c.receiveReply limits buffer with ⟨r, buffer', d⟩
    obtain ⟨taken, hy, ha, hl, hd⟩ := receiveReply_attempt hr
    rw [search_eq c limits messageRef buffer hr]
    cases hm : r.result with
    | error e =>
      exact ⟨taken, hy, nofun, nofun, ha, hl, fun m h => absurd (hm.symm.trans h) nofun, hd⟩
    | ok m =>
      dsimp only
      split
      · rename_i hreply
        exact ⟨taken, hy, nofun, nofun, ha, hl,
          fun n h => Except.ok.inj (hm.symm.trans h) ▸ hreply, hd⟩
      · rename_i hother
        obtain ⟨last, of⟩ :=
          ih d.incoming.work (hw ▸ receiveReply_work_lt hr hm) d buffer' rfl
        rw [hm] at ha
        cases ha with
        | accepted acceptable =>
          refine ⟨last, ?_, ?_, ?_, of.attempt, of.consumed, of.found, ?_⟩
          · have := hy.trans of.yields
            rwa [← List.append_assoc] at this
          · exact List.forall_mem_cons.mpr ⟨acceptable, of.acceptable⟩
          · exact List.forall_mem_cons.mpr ⟨by simpa using hother, of.others⟩
          · rw [of.connection, hd]

/-- A search of whole envelopes that does not stop inside one ends with one of them, or before
one. -/
theorem Search.Of.split {s : Search} {c : Connection} {limits : Limits} {messageRef : Int32}
    {taken : Bytes} {ms : List Envelope} (h : s.Of c limits messageRef taken)
    (hm : ∀ m ∈ ms, m.Acceptable limits) (hu : c.incoming.unread = ms.flatMap Envelope.wire)
    (whole : ∀ e, s.last.result = .error e → s.last.consumed = 0) :
    (∃ m rest, s.last.result = .ok m ∧ ms = s.passed ++ m :: rest ∧
        s.connection.incoming.unread = rest.flatMap Envelope.wire) ∨
      ∃ e rest, s.last.result = .error e ∧ ms = s.passed ++ rest ∧
        s.connection.incoming.unread = rest.flatMap Envelope.wire := by
  have sized : ∀ m ∈ ms, m.Sized := fun m h => (hm m h).toSized
  have passed : ∀ m ∈ s.passed, m.Sized := fun m hp => (h.acceptable m hp).toSized
  have stream := h.yields.unread.symm.trans hu
  have attempt := h.attempt
  cases hr : s.last.result with
  | ok m =>
    left
    rw [hr] at attempt
    cases attempt with
    | accepted acceptable =>
      have all : ∀ p ∈ s.passed ++ [m], p.Sized := by
        intro p hp
        rcases List.mem_append.mp hp with hp | hp
        · exact passed p hp
        · exact List.mem_singleton.mp hp ▸ acceptable.toSized
      have wires : (s.passed ++ [m]).flatMap Envelope.wire ++ s.connection.incoming.unread =
          ms.flatMap Envelope.wire := by simpa using stream
      obtain ⟨rest, split, left⟩ := Envelope.flatMap_wire_prefix all sized wires
      exact ⟨m, rest, rfl, by simpa using split, left⟩
  | error e =>
    right
    have nothing : taken = [] := List.eq_nil_of_length_eq_zero (h.consumed ▸ whole e hr)
    rw [nothing, List.append_nil] at stream
    obtain ⟨rest, split, left⟩ := Envelope.flatMap_wire_prefix passed sized stream
    exact ⟨e, rest, rfl, split, left⟩

/-- A search of a stream that goes on passes over what comes before the first reply, takes the reply and
leaves what follows it. -/
theorem search_takes {c : Connection} {limits : Limits} {messageRef : Int32}
    {ps : List Envelope} {m : Envelope} {rest : Bytes} (buffer : Option ReplyBuffer)
    (hs : ∀ turn ∈ c.incoming.turns, turn.goesOn) (hp : ∀ p ∈ ps, p.Acceptable limits)
    (others : ∀ p ∈ ps, isReplyTo messageRef p = false) (hm : m.Acceptable limits)
    (reply : isReplyTo messageRef m)
    (hu : c.incoming.unread = ps.flatMap Envelope.wire ++ (m.wire ++ rest)) :
    (c.search limits messageRef buffer).passed = ps ∧
      (c.search limits messageRef buffer).last.result = .ok m ∧
      (c.search limits messageRef buffer).connection.incoming.unread = rest := by
  induction ps generalizing c buffer with
  | nil =>
    rcases hr : c.receiveReply limits buffer with ⟨r, buffer', d⟩
    have got : r.result = .ok m := by
      have := receiveReply_goesOn buffer hs hm hu
      rwa [hr] at this
    obtain ⟨taken, hy, ha, -, -⟩ := receiveReply_attempt hr
    rw [got] at ha
    cases ha with
    | accepted =>
      rw [search_eq c limits messageRef buffer hr, got]
      dsimp only
      rw [if_pos reply]
      exact ⟨rfl, got, List.append_cancel_left (hy.unread.symm.trans hu)⟩
  | cons p ps ih =>
    rw [List.flatMap_cons, List.append_assoc] at hu
    obtain ⟨hp, hps⟩ := List.forall_mem_cons.mp hp
    obtain ⟨other, others⟩ := List.forall_mem_cons.mp others
    rcases hr : c.receiveReply limits buffer with ⟨r, buffer', d⟩
    have got : r.result = .ok p := by
      have := receiveReply_goesOn buffer hs hp hu
      rwa [hr] at this
    obtain ⟨taken, hy, ha, -, -⟩ := receiveReply_attempt hr
    rw [got] at ha
    cases ha with
    | accepted =>
      obtain ⟨passed, found, left⟩ :=
        ih buffer' (hy.goesOn hs) hps others (List.append_cancel_left (hy.unread.symm.trans hu))
      rw [search_eq c limits messageRef buffer hr, got]
      simp only [other]
      exact ⟨congrArg (p :: ·) passed, found, left⟩

end Connection

end ModuleLink
