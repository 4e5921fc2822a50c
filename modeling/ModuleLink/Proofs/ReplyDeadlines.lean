import Mathlib.Tactic.Common
import ModuleLink.Proofs.ReplyMatching
import ModuleLink.Proofs.StreamPosition

/-! # What a deadline leaves behind

A wait that runs out of time has taken whole envelopes off the router's stream, none of them the
reply, and perhaps the beginning of another one. The envelopes are set aside. The beginning costs the
router connection; without one the connection stays, and a later wait takes up the stream where the
first one left it. -/
namespace ModuleLink

/-- The beginning of an envelope that is not all there. -/
def IsCut (bytes : Bytes) : Prop :=
  ∃ (m : Envelope) (more : Bytes), m.Sized ∧ m.wire = bytes ++ more ∧ more ≠ []

theorem isCut_body {h : Header} {body : Bytes}
    (short : body.length < h.classTotal.toNat + h.messageTotal.toNat) : IsCut (h.encode ++ body) := by
  let missing : Bytes := List.replicate (h.classTotal.toNat + h.messageTotal.toNat - body.length) 0
  have length : (body ++ missing).length = h.classTotal.toNat + h.messageTotal.toNat := by
    rw [List.length_append, List.length_replicate]
    omega
  refine ⟨.ofBody h (body ++ missing), missing, Envelope.sized_ofBody length, ?_, ?_⟩
  · rw [Envelope.wire_ofBody, List.append_assoc]
  · exact List.ne_nil_of_length_pos (by rw [List.length_replicate]; omega)

/-- Bytes that end inside a header are the beginning of an envelope, whatever they say. -/
theorem isCut_header {bytes : Bytes} (short : bytes.length < Header.size) : IsCut bytes := by
  let missing : Bytes := List.replicate (Header.size - bytes.length) 0
  have length : (bytes ++ missing).length = Header.size := by
    rw [List.length_append, List.length_replicate]
    omega
  have whole := Header.encode_decode (Nat.le_of_eq length.symm)
  rw [← length, List.drop_length, List.append_nil] at whole
  let h := Header.decode (bytes ++ missing)
  let body : Bytes := List.replicate (h.classTotal.toNat + h.messageTotal.toNat) 0
  have sized : (Envelope.ofBody h body).Sized := Envelope.sized_ofBody List.length_replicate
  refine ⟨.ofBody h body, missing ++ body, sized, ?_, ?_⟩
  · rw [Envelope.wire_ofBody, whole, List.append_assoc]
  · refine List.append_ne_nil_of_left_ne_nil ?_ body
    exact List.ne_nil_of_length_pos (by rw [List.length_replicate]; omega)

/-- A stream that fails an attempt leaves it with the beginning of an envelope. -/
theorem Attempt.isCut {limits : Limits} {taken : Bytes} {e : TransportError}
    (h : Attempt limits taken (.error (.transport e))) : IsCut taken := by
  cases h with
  | cutHeader short => exact isCut_header short
  | cutBody _ short => exact isCut_body short

theorem IsCut.not_wire {m : Envelope} {rest : Bytes} (h : IsCut (m.wire ++ rest)) (hm : m.Sized) :
    False := by
  obtain ⟨n, more, hn, wire, some⟩ := h
  have start : n.wire ++ [] = m.wire ++ (rest ++ more) := by
    rw [List.append_nil, wire, List.append_assoc]
  obtain ⟨-, nothing⟩ := hn.wire_append_inj hm start
  exact some (List.append_eq_nil_iff.mp nothing.symm).2

/-- Bytes fall into whole envelopes and the beginning of another one in one way only. -/
theorem IsCut.unique {ms ns : List Envelope} {cut cut' : Bytes} (h : IsCut cut) (h' : IsCut cut')
    (hm : ∀ m ∈ ms, m.Sized) (hn : ∀ n ∈ ns, n.Sized)
    (e : ms.flatMap Envelope.wire ++ cut = ns.flatMap Envelope.wire ++ cut') :
    ms = ns ∧ cut = cut' := by
  induction ms generalizing ns with
  | nil =>
    cases ns with
    | nil => exact ⟨rfl, e⟩
    | cons n ns =>
      rw [List.flatMap_cons, List.append_assoc] at e
      obtain rfl : cut = _ := e
      exact (h.not_wire (hn n (List.mem_cons_self ..))).elim
  | cons m ms ih =>
    obtain ⟨sized, rest⟩ := List.forall_mem_cons.mp hm
    rw [List.flatMap_cons, List.append_assoc] at e
    cases ns with
    | nil =>
      obtain rfl : _ = cut' := e
      exact (h'.not_wire sized).elim
    | cons n ns =>
      obtain ⟨sized', rest'⟩ := List.forall_mem_cons.mp hn
      rw [List.flatMap_cons, List.append_assoc] at e
      obtain ⟨rfl, tails⟩ := sized.wire_append_inj sized' e
      obtain ⟨rfl, same⟩ := ih rest rest' tails
      exact ⟨rfl, same⟩

/-- What a search took that ends inside an envelope falls in one way only into whole envelopes and
the beginning of another one. -/
theorem Connection.Search.Of.unique {s : Search} {c : Connection} {limits : Limits}
    {messageRef : Int32} {cut : Bytes} (of : s.Of c limits messageRef cut) (isCut : IsCut cut)
    {read : List Envelope} {cut' : Bytes} (sized : ∀ m ∈ read, m.Sized) (isCut' : IsCut cut')
    (split : c.incoming.unread =
      read.flatMap Envelope.wire ++ cut' ++ s.connection.incoming.unread) :
    read = s.passed ∧ cut' = cut := by
  rw [of.yields.unread] at split
  exact isCut'.unique isCut sized (fun m hm => (of.acceptable m hm).toSized)
    (List.append_cancel_right split).symm

/-- A deadline costs the connection if it comes after part of an envelope. -/
theorem Reception.tearsDown_of_timeout {r : Reception} {e : TransportError}
    (h : r.result = .error (.transport e)) (late : e.isTimeout = true) :
    r.tearsDown = decide (0 < r.consumed) := by
  simp only [tearsDown, h, FrameError.isTimeout, late, if_true]

namespace ModuleContext

theorem transport_of_failure {timeout : Option Span} {e : FrameError} {span : Span}
    (h : failure timeout e = .timeout span) : ∃ cause, e = .transport cause ∧ cause.isTimeout := by
  simp only [failure] at h
  split at h
  · rename_i late
    cases e with
    | transport cause => exact ⟨cause, rfl, late⟩
    | _ => cases late
  · cases h

variable {x : ModuleContext} {router : ConnectionId} {c : Connection} {messageRef : Int32}
  {timeout : Option Span} {buffer : Option ReplyBuffer}

theorem setConnection_self (hc : x.connection? router = some c) : x.setConnection router c = x := by
  obtain ⟨hlt, rfl⟩ := List.getElem?_eq_some_iff.mp hc
  simp only [setConnection, List.set_getElem_self]

theorem admission_timeout {e : PeerError} (h : x.admission timeout = .error e) {span : Span}
    (late : e = .timeout span) : ∃ router c, x.router = some router ∧ x.connection? router = some c := by
  unfold admission at h
  split at h
  · rename_i id c hr hc
    rw [hr, Option.bind_some] at hc
    exact ⟨id, c, hr, hc⟩
  · rw [late] at h
    cases h

theorem finishReply_ne_timeout (m : Envelope) (span : Span) :
    finishReply m ≠ .error (.timeout span) := by
  simp only [finishReply]
  split <;> exact nofun

/-- After a search nothing is pending under the reference that it was for, if nothing was before. -/
theorem pending_afterSearch {s : Connection.Search} {limits : Limits} {taken : Bytes}
    (of : s.Of c limits messageRef taken)
    (pending : ∀ p ∈ x.pendingReplies, p.messageRef ≠ messageRef) :
    ∀ p ∈ (x.afterSearch router s).pendingReplies, p.messageRef ≠ messageRef := by
  intro p hp
  rcases List.mem_append.mp hp with hp | hp
  · exact pending p hp
  · obtain ⟨hp, intent⟩ := List.mem_filter.mp hp
    intro same
    have reply := isReplyTo_iff.mpr ⟨of_decide_eq_true intent, same⟩
    exact Bool.false_ne_true ((of.others p hp).symm.trans reply)

/-- A wait that runs out of time, whether or not it came to read, ends as a search whose last attempt
met the deadline. -/
theorem waitInto_of_timeout {span : Span} (serves : x.Serves router)
    (late : (x.waitInto messageRef timeout buffer).1.result = .error (.timeout span)) :
    ∃ c s taken, x.connection? router = some c ∧
      Connection.Search.Of s c x.settings.limits messageRef taken ∧
      (∃ e, s.last.result = .error (.transport e) ∧ e.isTimeout = true) ∧
      (∀ p ∈ x.pendingReplies, p.messageRef ≠ messageRef) ∧
      (x.waitInto messageRef timeout buffer).2 =
        if s.last.tearsDown then ((x.afterSearch router s).handleClosed router).2
        else x.afterSearch router s := by
  cases x.waitInto_ends messageRef timeout buffer with
  | kept before m after split others found pending ends =>
    rw [ends] at late
    exact (finishReply_ne_timeout m span late).elim
  | refused e missing pending refusal ends =>
    rw [ends] at late ⊢
    obtain ⟨id, c, hr, hc⟩ := admission_timeout refusal (Except.error.inj late)
    obtain rfl : id = router := Option.some.inj (hr.symm.trans serves.attached)
    let s : Connection.Search := ⟨[], ⟨.error (.transport (.timedOut Header.size 0)), 0⟩, buffer, c⟩
    have of : s.Of c x.settings.limits messageRef [] :=
      { yields := .refl _
        acceptable := List.forall_mem_nil _
        others := List.forall_mem_nil _
        attempt := .cutHeader (by decide) rfl
        consumed := rfl
        found := fun m got => by cases got
        connection := rfl }
    have kept : x.afterSearch id s = x := by
      simp only [s, afterSearch, setConnection_self hc, replies, otherTraffic, List.filter_nil,
        List.map_nil, List.append_nil]
    refine ⟨c, s, [], hc, of, ⟨_, rfl, rfl⟩, missing, ?_⟩
    rw [kept]
    rfl
  | searched id c taken missing pending admitted of ends =>
    obtain ⟨hr, hc⟩ := admission_ok admitted
    obtain rfl : id = router := Option.some.inj (hr.symm.trans serves.attached)
    rw [ends, readReply_eq x id c messageRef timeout buffer rfl] at late ⊢
    refine ⟨c, _, taken, hc, of, ?_, missing, rfl⟩
    cases hr : (c.search x.settings.limits messageRef buffer).last.result with
    | ok m =>
      rw [hr] at late
      exact (finishReply_ne_timeout m span late).elim
    | error e =>
      rw [hr] at late
      obtain ⟨cause, rfl, isTimeout⟩ := transport_of_failure (Except.error.inj late)
      exact ⟨cause, rfl, isTimeout⟩

theorem routerLostTally_handleClosed (serves : x.Serves router) :
    (x.handleClosed router).2.routerLostTally = x.routerLostTally + x.routerLostHook.getD 0 := by
  rw [handleClosed_of_mem serves.listed]
  simp only [serves.attached, if_true, loseRouter]
  rw [invalidate_eq]

theorem canRead_of_turns {turns : List Turn}
    (h : (x.admission timeout).map (fun admitted => (admitted.1, admitted.2.incoming.turns)) =
      .ok (router, turns)) (goesOn : ∀ turn ∈ turns, turn.goesOn) : x.canRead router timeout := by
  cases admitted : x.admission timeout with
  | error e =>
    rw [admitted] at h
    cases h
  | ok p =>
    rw [admitted] at h
    obtain ⟨id, c⟩ := p
    obtain ⟨rfl, rfl⟩ := Prod.mk.inj (Except.ok.inj h)
    exact ⟨c, admitted, goesOn⟩

/-- Bytes that the other end could write are there to be read, however they were cut. -/
theorem after_arrives {chunks : List Bytes} (hc : x.connection? router = some c)
    (delivered : (x.after router (chunks.map .arrives)).1 =
      chunks.map fun _ => .delivered true) :
    ∃ d, (x.after router (chunks.map .arrives)).2.connection? router = some d ∧
      d.incoming.unread = c.incoming.unread ++ chunks.flatten ∧
      (x.after router (chunks.map .arrives)).2.pendingReplies = x.pendingReplies ∧
      (x.after router (chunks.map .arrives)).2.settings = x.settings := by
  induction chunks generalizing x c with
  | nil => exact ⟨c, hc, (List.append_nil _).symm, rfl, rfl⟩
  | cons chunk chunks ih =>
    simp only [List.map_cons, after, List.cons.injEq] at delivered ⊢
    obtain ⟨first, delivered⟩ := delivered
    simp only [apply, hc] at first delivered ⊢
    have grown : (c.peerWrites chunk).2.incoming.unread = c.incoming.unread ++ chunk := by
      simp only [Connection.peerWrites] at first ⊢
      split at first
      · cases first
      · rename_i accepts
        rw [if_neg accepts]
    obtain ⟨d, hd, unread, pending, settings⟩ :=
      ih (connection?_setConnection_self hc (c.peerWrites chunk).2) delivered
    refine ⟨d, hd, ?_, pending, settings⟩
    rw [unread, grown, List.flatten_cons, List.append_assoc]

/-- Once the stream, of which so much is left, goes on to a reply under the reference, a wait that can
read has that reply, however the bytes arrived. -/
def Resumes (x : ModuleContext) (router : ConnectionId) (messageRef : Int32) (left : Bytes) : Prop :=
  ∀ (chunks : List Bytes) (timeout : Option Span) (buffer : Option ReplyBuffer) (ps : List Envelope)
    (m : Envelope) (rest : Bytes),
    (x.after router (chunks.map .arrives)).1 = chunks.map (fun _ => .delivered true) →
    (x.after router (chunks.map .arrives)).2.canRead router timeout →
    left ++ chunks.flatten = ps.flatMap Envelope.wire ++ (m.wire ++ rest) →
    (∀ p ∈ ps, p.Acceptable x.settings.limits ∧ isReplyTo messageRef p = false) →
    m.Acceptable x.settings.limits → isReplyTo messageRef m →
    ((x.after router (chunks.map .arrives)).2.waitInto messageRef timeout buffer).1.result =
      finishReply m

theorem resumes_of_pending (hc : x.connection? router = some c)
    (pending : ∀ p ∈ x.pendingReplies, p.messageRef ≠ messageRef) :
    x.Resumes router messageRef c.incoming.unread := by
  intro chunks timeout buffer ps m rest delivered can stream others acceptable reply
  obtain ⟨d, hd, unread, same, settings⟩ := after_arrives hc delivered
  rw [← settings] at others acceptable
  have missing : ((x.after router (chunks.map .arrives)).2.takePending messageRef).1 = none := by
    obtain ⟨before, p, after, split, -, found, -⟩ | ⟨-, none⟩ :=
      (x.after router (chunks.map .arrives)).2.takePending_cases messageRef
    · rw [same] at split
      exact absurd found (pending p (by rw [split]; simp))
    · rw [none]
  exact waitInto_finds buffer missing can hd others acceptable reply (unread.trans stream)

/-- What a wait read until its deadline falls in one way only into whole envelopes and the beginning
of another one. The envelopes are set aside. The connection is torn down, which runs the hook, exactly
if the beginning has any bytes. If it has none, nothing of the next envelope is missing on the stream,
and the reply can be had later. -/
theorem tornDown_iff_cut {span : Span} (serves : x.Serves router)
    (late : (x.waitInto messageRef timeout buffer).1.result = .error (.timeout span)) :
    let y := (x.waitInto messageRef timeout buffer).2
    ∃ c d read cut, x.connection? router = some c ∧ y.connection? router = some d ∧
      c.incoming.unread = read.flatMap Envelope.wire ++ cut ++ d.incoming.unread ∧ IsCut cut ∧
      (∀ m ∈ read, m.Acceptable x.settings.limits ∧ isReplyTo messageRef m = false) ∧
      (∀ read' cut', (∀ m ∈ read', m.Sized) → IsCut cut' →
        c.incoming.unread = read'.flatMap Envelope.wire ++ cut' ++ d.incoming.unread →
        read' = read ∧ cut' = cut) ∧
      y.pendingReplies = x.pendingReplies ++ replies read ∧
      y.inbound = x.inbound ++ (otherTraffic read).map (router, ·) ∧
      (y.TornDown router ↔ cut ≠ []) ∧
      (cut ≠ [] → y.routerLostTally = x.routerLostTally + x.routerLostHook.getD 0) ∧
      (cut = [] → y.Serves router ∧ d.isOpen = c.isOpen ∧ y.routerLostTally = x.routerLostTally ∧
        y.Resumes router messageRef d.incoming.unread) := by
  obtain ⟨c, s, cut, hc, of, ⟨e, failed, isTimeout⟩, pending, after⟩ :=
    waitInto_of_timeout serves late
  have isCut : IsCut cut := by
    have attempt := of.attempt
    rw [failed] at attempt
    exact attempt.isCut
  have others : ∀ m ∈ s.passed, m.Acceptable x.settings.limits ∧ isReplyTo messageRef m = false :=
    fun m hm => ⟨of.acceptable m hm, of.others m hm⟩
  have tearsDown := Reception.tearsDown_of_timeout failed isTimeout
  rw [of.consumed] at tearsDown
  have serves' : (x.afterSearch router s).Serves router := ⟨serves.attached, serves.listed⟩
  have now : (x.afterSearch router s).connection? router = some s.connection :=
    connection?_setConnection_self hc s.connection
  dsimp only
  rw [after, tearsDown]
  by_cases whole : cut = []
  · have kept : ¬ decide (0 < cut.length) = true := by simp [whole]
    rw [if_neg kept]
    have untorn : ¬ (x.afterSearch router s).TornDown router := fun torn =>
      Option.some_ne_none router (serves'.attached.symm.trans torn.gone)
    have isOpen : s.connection.isOpen = c.isOpen := by rw [of.connection]
    exact ⟨c, s.connection, s.passed, cut, hc, now, of.yields.unread, isCut, others,
      fun _ _ => of.unique isCut, rfl, rfl,
      iff_of_false untorn (Classical.not_not.mpr whole), fun some => absurd whole some,
      fun _ => ⟨serves', isOpen, rfl, resumes_of_pending now (pending_afterSearch of pending)⟩⟩
  · have torn : decide (0 < cut.length) = true := decide_eq_true (List.length_pos_iff.mpr whole)
    obtain ⟨d, hd, same⟩ := incoming_handleClosed (x.afterSearch router s) router now
    rw [if_pos torn]
    refine ⟨c, d, s.passed, cut, hc, hd, ?_, isCut, others, fun _ _ => ?_, ?_, ?_,
      iff_of_true serves'.handleClosed whole, fun _ => routerLostTally_handleClosed serves',
      fun none => absurd none whole⟩
    · rw [same, of.yields.unread]
    · rw [same]
      exact of.unique isCut
    · rw [pendingReplies_handleClosed]
      rfl
    · rw [inbound_handleClosed]
      rfl

def interrupted (part : Bytes) : ModuleContext :=
  ({ quiet with routerLostHook := some 1 }.apply 0
    (.arrives ((Envelope.plain 3 noRef [1, 2]).wire ++ part))).2

/-- A deadline inside the reply costs the connection. One before it does not, and the reply comes in
two pieces afterwards. -/
theorem tornDown_iff_cut_interrupted :
    let reply := Envelope.plain queryReplyIntent 1 [11]
    let timeout := some (Span.ofMillis 50)
    let inside := interrupted (reply.wire.take 10)
    let before := interrupted []
    let rest := [.arrives (reply.wire.take 10), .arrives (reply.wire.drop 10)]
    inside.Serves 0 ∧ (inside.waitInto 1 timeout none).1.result = .error (.timeout (.ofMillis 50)) ∧
      (inside.waitInto 1 timeout none).2.TornDown 0 ∧
      (inside.waitInto 1 timeout none).2.routerLostTally = 1 ∧
      before.Serves 0 ∧ (before.waitInto 1 timeout none).1.result = .error (.timeout (.ofMillis 50)) ∧
      (before.waitInto 1 timeout none).2.Serves 0 ∧
      (((before.waitInto 1 timeout none).2.after 0 rest).2.waitInto 1 timeout none).1.result =
        .ok reply := by
  intro reply timeout inside before rest
  have lateInside : (inside.waitInto 1 timeout none).1.result = .error (.timeout (.ofMillis 50)) := by
    decide +kernel
  have lateBefore : (before.waitInto 1 timeout none).1.result = .error (.timeout (.ofMillis 50)) := by
    decide +kernel
  have servesInside : inside.Serves 0 := ⟨rfl, by decide +kernel⟩
  have servesBefore : before.Serves 0 := ⟨rfl, by decide +kernel⟩
  have torn : (inside.waitInto 1 timeout none).2.TornDown 0 :=
    ⟨by decide +kernel, by decide +kernel, by decide +kernel⟩
  have attached : (before.waitInto 1 timeout none).2.router = some 0 := by decide +kernel
  have left : ((before.waitInto 1 timeout none).2.connection? 0).map
      (fun c => (c.isOpen, c.incoming.exhaustion, c.incoming.unread)) = some (true, .silent, []) := by
    decide +kernel
  have reads : (((before.waitInto 1 timeout none).2.after 0 rest).2.admission timeout).map
      (fun admitted => (admitted.1, admitted.2.incoming.turns)) = .ok (0, []) := by
    decide +kernel
  obtain ⟨-, -, -, cut, -, -, -, -, -, -, -, -, iff, hook, -⟩ :=
    tornDown_iff_cut servesInside lateInside
  obtain ⟨c, d, -, cut', -, hd, -, -, -, -, -, -, iff', -, kept⟩ :=
    tornDown_iff_cut servesBefore lateBefore
  have whole : cut' = [] := by
    refine Classical.not_not.mp fun part => ?_
    exact Option.some_ne_none 0 (attached.symm.trans (iff'.mpr part).gone)
  obtain ⟨serves, -, -, resumes⟩ := kept whole
  obtain ⟨isOpen, silent, nothing⟩ : d.isOpen = true ∧ d.incoming.exhaustion = .silent ∧
      d.incoming.unread = [] := by simpa [hd] using left
  have delivered : ((before.waitInto 1 timeout none).2.after 0 rest).1 =
      [.delivered true, .delivered true] := by
    simp [rest, ModuleContext.after, ModuleContext.apply, hd, connection?_setConnection_self hd,
      Connection.peerWrites, isOpen, silent]
  rw [nothing] at resumes
  refine ⟨servesInside, lateInside, torn, hook (iff.mp torn), servesBefore, lateBefore, serves, ?_⟩
  exact resumes [reply.wire.take 10, reply.wire.drop 10] timeout none [] reply [] delivered
    (canRead_of_turns reads (List.forall_mem_nil _)) (by decide +kernel) (List.forall_mem_nil _)
    (by decide +kernel) (by decide)

end ModuleContext

end ModuleLink
