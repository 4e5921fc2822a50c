import ModuleLink.Proofs.EnvelopeRoundTrip
import ModuleLink.Proofs.ReplyMatching

/-! # One end of a channel that works

Such an end takes every envelope that is sent on it, and hands out those that have arrived, one after
the other. Behind the last of them it is silent, and a wait that comes so far ends without giving the
connection up. -/
namespace ModuleLink

namespace Source

/-- A silent stream answers with the deadline, or asks to be called again. -/
theorem read_of_silent {s t : Source} {c : Call} {a : ReadAnswer} (h : s.read c = (a, t))
    (hs : ∀ turn ∈ s.turns, turn.goesOn) (silent : s.exhaustion = .silent) (hu : s.unread = [])
    (hc : c.room s.gathers ≠ 0) :
    ∃ cause, a = .failed cause ∧ (cause.kind = .interrupted ∨ cause.kind = .timedOut) := by
  have late : ∀ (u : Source) (most : Nat), u.exhaustion = .silent → u.unread = [] → most ≠ 0 →
      (u.hand most).1 = .failed (.bare .timedOut) := by
    intro u most he hu hm
    rw [hand, if_pos ⟨he, hu, hm⟩]
  unfold read at h
  dsimp only at h
  split at h
  · obtain ⟨rfl, -⟩ := Prod.mk.inj h.symm
    exact ⟨_, late _ _ silent hu hc, .inr rfl⟩
  · rename_i most turns ht
    obtain ⟨rfl, -⟩ := Prod.mk.inj h.symm
    have hm : most ≠ 0 := by simpa [Turn.goesOn] using hs (.move most) (by simp [ht])
    exact ⟨_, late _ _ silent hu (by omega), .inr rfl⟩
  · rename_i cause turns ht
    obtain ⟨rfl, -⟩ := Prod.mk.inj h.symm
    exact ⟨cause, rfl, .inl (by simpa [Turn.goesOn] using hs (.fail cause) (by simp [ht]))⟩

theorem readRest_of_silent (s : Source) (expected : Nat) (got : Bytes)
    (hs : ∀ turn ∈ s.turns, turn.goesOn) (silent : s.exhaustion = .silent) (hu : s.unread = [])
    (hg : got.length < expected) :
    (s.readRest expected got).1.result = .error (.timedOut expected got.length) := by
  have room : ∀ gathers, (Call.plain (expected - got.length)).room gathers ≠ 0 :=
    fun _ => Nat.sub_ne_zero_of_lt hg
  fun_induction readRest s expected got with
  | case1 s got _ t h =>
    obtain ⟨cause, ha, -⟩ := read_of_silent h hs silent hu (room _)
    cases ha
  | case2 s got _ b bs t h =>
    obtain ⟨cause, ha, -⟩ := read_of_silent h hs silent hu (room _)
    cases ha
  | case3 s got _ cause t h _ ih =>
    have hy := (read_yields h).1
    have left : t.unread = [] := by simpa [ReadAnswer.got, hu] using hy.unread.symm
    exact ih (hy.goesOn hs) (hy.exhaustion.trans silent) left hg room
  | case4 s got _ cause t h hk =>
    obtain ⟨cause', ha, interrupted | late⟩ := read_of_silent h hs silent hu (room _)
    · cases ha
      exact absurd interrupted hk
    · cases ha
      simp only [readFailure, late]
  | case5 s got enough => exact absurd hg enough

end Source

theorem receive_of_silent {s : Source} (limits : Limits) (hs : ∀ turn ∈ s.turns, turn.goesOn)
    (silent : s.exhaustion = .silent) (hu : s.unread = []) :
    (receive s limits).1 = .error (.transport (.timedOut Header.size 0)) := by
  have late := s.readRest_of_silent Header.size [] hs silent hu (by decide)
  simp only [receive, receiveHeader, Source.readExact]
  generalize s.readRest Header.size [] = r at late ⊢
  obtain ⟨⟨got, result⟩, t⟩ := r
  obtain rfl : result = _ := late
  rfl

namespace Connection

/-- The end is open, nobody else reads it, it takes every write, its stream goes on and stays silent
where it ends; the other end has taken all that was written. -/
structure Works (c : Connection) : Prop where
  isOpen : c.isOpen = true
  free : c.readHeld = false
  goesOn : ∀ turn ∈ c.incoming.turns, turn.goesOn
  silent : c.incoming.exhaustion = .silent
  willing : c.outgoing.Willing
  taken : c.outgoing.written = []

variable {c : Connection} {m : Envelope} {ms : List Envelope} {limits : Limits}

theorem Works.send (works : c.Works) (sized : m.Sized) :
    ∃ d, c.send m = (.ok (), d) ∧ d.peerTakes.1 = m.wire ∧ d.peerTakes.2.Works ∧
      d.peerTakes.2.incoming = c.incoming := by
  have sent := send_of_sized sized works.isOpen works.willing
  obtain ⟨willing, written⟩ := send_of_willing works.willing m
  rw [sent, works.taken] at written
  refine ⟨(c.send m).2, Prod.ext sent rfl, written, ?_⟩
  rw [send_eq]
  exact ⟨⟨works.isOpen, works.free, works.goesOn, works.silent,
    ⟨willing.attended, willing.turns⟩, rfl⟩, rfl⟩

theorem Works.arrives (works : c.Works) (bytes : Bytes) :
    (c.peerWrites bytes).2.Works ∧
      (c.peerWrites bytes).2.incoming.unread = c.incoming.unread ++ bytes := by
  have accepts : ¬ (c.incoming.exhaustion = .ended ∨ (bytes ≠ [] ∧ !c.isOpen ∧ c.kind ≠ .pipe)) := by
    simp [works.silent, works.isOpen]
  rw [peerWrites, if_neg accepts]
  exact ⟨⟨works.isOpen, works.free, works.goesOn, works.silent, works.willing, works.taken⟩, rfl⟩

theorem Works.yields (works : c.Works) {taken : Bytes} {t : Source} (hy : c.incoming.Yields taken t) :
    { c with incoming := t }.Works :=
  ⟨works.isOpen, works.free, hy.goesOn works.goesOn, hy.exhaustion.trans works.silent,
    works.willing, works.taken⟩

theorem Works.receive (works : c.Works) (hm : m.Acceptable limits)
    (hu : c.incoming.unread = m.wire ++ ms.flatMap Envelope.wire) :
    ∃ d, c.receive limits = (.ok m, d) ∧ d.Works ∧ d.incoming.unread = ms.flatMap Envelope.wire := by
  obtain ⟨t, hr, hy, left⟩ := receive_takes works.goesOn hm hu
  refine ⟨{ c with incoming := t }, ?_, works.yields hy, left⟩
  simp only [Connection.receive, ensureOpen, works.isOpen, if_true, hr]

theorem receiveReply_of_silent (works : c.Works) (hu : c.incoming.unread = []) (limits : Limits)
    (buffer : Option ReplyBuffer) :
    (c.receiveReply limits buffer).1.result = .error (.transport (.timedOut Header.size 0)) := by
  have late := receive_of_silent limits works.goesOn works.silent hu
  cases buffer with
  | none => exact late
  | some b => exact (receiveWithReply_eq c.incoming limits b).1.trans late

/-- A search of an end that works ends between two envelopes, and leaves an end that works. -/
theorem Works.search (works : c.Works) (messageRef : Int32) (buffer : Option ReplyBuffer)
    (hm : ∀ m ∈ ms, m.Acceptable limits) (hu : c.incoming.unread = ms.flatMap Envelope.wire) :
    (c.search limits messageRef buffer).last.stopsInside = false ∧
      (c.search limits messageRef buffer).last.tearsDown = false ∧
      (c.search limits messageRef buffer).connection.Works := by
  induction ms generalizing c buffer with
  | nil =>
    rcases hr : c.receiveReply limits buffer with ⟨r, buffer', d⟩
    have late : r.result = .error (.transport (.timedOut Header.size 0)) := by
      have := receiveReply_of_silent works hu limits buffer
      rwa [hr] at this
    obtain ⟨taken, hy, -, consumed, hd⟩ := receiveReply_attempt hr
    have nothing : taken = [] := (List.append_eq_nil_iff.mp (hy.unread.symm.trans hu)).1
    rw [nothing, List.length_nil] at consumed
    rw [search_eq c limits messageRef buffer hr, late]
    refine ⟨?_, ?_, ?_⟩
    · simp [Reception.stopsInside, late, consumed]
    · simp [Reception.tearsDown, late, consumed, FrameError.isTimeout, TransportError.isTimeout]
    · exact hd ▸ works.yields hy
  | cons p ps ih =>
    obtain ⟨hp, hps⟩ := List.forall_mem_cons.mp hm
    rcases hr : c.receiveReply limits buffer with ⟨r, buffer', d⟩
    have got : r.result = .ok p := by
      have := receiveReply_goesOn buffer works.goesOn hp hu
      rwa [hr] at this
    obtain ⟨taken, hy, attempt, -, hd⟩ := receiveReply_attempt hr
    have works' : d.Works := hd ▸ works.yields hy
    rw [got] at attempt
    rw [search_eq c limits messageRef buffer hr, got]
    dsimp only
    split
    · exact ⟨by simp [Reception.stopsInside, got], by simp [Reception.tearsDown, got], works'⟩
    · cases attempt with
      | accepted => exact ih works' buffer' hps (List.append_cancel_left (hy.unread.symm.trans hu))

end Connection

namespace ModuleContext

variable {x : ModuleContext} {router : ConnectionId} {b : Mail} {c : Connection}

/-- A wait on a router connection that works changes nothing but that connection and the queues, and
the connection works on. -/
theorem Holds.waits (h : x.Holds router b) (hc : x.connection? router = some c) (works : c.Works)
    (messageRef : Int32) (timeout : Option Span) (buffer : Option ReplyBuffer) :
    (∀ r ∈ x.attempt (.waits messageRef timeout buffer), r.stopsInside = false) ∧
      ∃ connections pending inbound, (x.waitInto messageRef timeout buffer).2 =
          { x with connections, pendingReplies := pending, inbound } ∧
        ∃ d, (x.waitInto messageRef timeout buffer).2.connection? router = some d ∧ d.Works := by
  cases x.waitInto_ends messageRef timeout buffer with
  | kept before m after split others found pending ends =>
    rw [ends]
    exact ⟨by simp [attempt, pending], x.connections, before ++ after, x.inbound, rfl, c, hc, works⟩
  | refused e missing pending refusal ends =>
    rw [ends]
    exact ⟨by simp [attempt, pending, refusal], x.connections, x.pendingReplies, x.inbound, rfl, c, hc,
      works⟩
  | searched id c' taken missing pending admitted of ends =>
    obtain ⟨hr, hc'⟩ := admission_ok admitted
    obtain rfl := h.router id hr
    obtain rfl : c' = c := Option.some.inj (hc'.symm.trans hc)
    obtain ⟨d, hd, hu⟩ := h.unread
    obtain rfl : c' = d := Option.some.inj (hc.symm.trans hd)
    obtain ⟨outside, keeps, works'⟩ := works.search messageRef buffer h.acceptable hu
    rw [ends, readReply_eq x id c' messageRef timeout buffer rfl]
    refine ⟨by simpa [attempt, pending, admitted] using outside, ?_⟩
    simp only [keeps, Bool.false_eq_true, if_false]
    exact ⟨_, _, _, rfl, _, connection?_setConnection_self hc _, works'⟩

end ModuleContext

end ModuleLink
