import ModuleLink.Proofs.RouterEvents

/-! # Where a stream stands between two waits

A wait that ends leaves the router connection torn down, or its stream between two envelopes,
unless its last attempt derails: the header of an envelope that is too large is taken without its
body, and a read that fails for another reason than the deadline or the end of the stream leaves
part of an envelope behind. -/
namespace ModuleLink

def IsWhole (bytes : Bytes) : Prop := ∃ ms : List Envelope, (∀ m ∈ ms, m.Sized) ∧
  bytes = ms.flatMap Envelope.wire

/-- An attempt that stops inside an envelope, with an error that the connection survives. -/
def Reception.derails (r : Reception) : Bool :=
  match r.result with
  | .error (.segmentTooLarge ..) => true
  | .error (.transport (.io _)) => 0 < r.consumed
  | _ => false

theorem isWhole_nil : IsWhole [] := ⟨[], nofun, rfl⟩

theorem Envelope.Sized.isWhole {m : Envelope} (h : m.Sized) : IsWhole m.wire :=
  ⟨[m], by simpa using h, by simp⟩

theorem IsWhole.append {a b : Bytes} (ha : IsWhole a) (hb : IsWhole b) : IsWhole (a ++ b) := by
  obtain ⟨ms, hm, rfl⟩ := ha
  obtain ⟨ns, hn, rfl⟩ := hb
  refine ⟨ms ++ ns, ?_, by rw [List.flatMap_append]⟩
  intro p hp
  rcases List.mem_append.mp hp with hp | hp
  · exact hm p hp
  · exact hn p hp

/-- After whole envelopes, only whole envelopes make whole envelopes. -/
theorem IsWhole.of_append {a b : Bytes} (ha : IsWhole a) (hab : IsWhole (a ++ b)) : IsWhole b := by
  obtain ⟨ms, hm, rfl⟩ := ha
  obtain ⟨ns, hn, e⟩ := hab
  obtain ⟨rest, rfl, rfl⟩ := Envelope.flatMap_wire_prefix hm hn e
  exact ⟨rest, fun p hp => hn p (List.mem_append_right _ hp), rfl⟩

/-- Whole envelopes that start with a header hold the body that it announces. -/
theorem IsWhole.body_le {h : Header} {body : Bytes} (w : IsWhole (h.encode ++ body)) :
    h.classTotal.toNat + h.messageTotal.toNat ≤ body.length := by
  obtain ⟨ms, hm, e⟩ := w
  cases ms with
  | nil => exact absurd e nofun
  | cons m ms =>
    rw [List.flatMap_cons, Envelope.wire_eq, List.append_assoc] at e
    obtain ⟨rfl, rfl⟩ := Header.encode_append_inj e
    have sized := hm m (List.mem_cons_self ..)
    rw [List.length_append, List.length_append, sized.classTotal, sized.messageTotal]
    omega

theorem IsWhole.header_le {bytes : Bytes} (w : IsWhole bytes) (h : bytes ≠ []) :
    Header.size ≤ bytes.length := by
  obtain ⟨ms, hm, rfl⟩ := w
  cases ms with
  | nil => exact absurd rfl h
  | cons m ms =>
    rw [List.flatMap_cons, Envelope.wire_eq, List.append_assoc, List.length_append,
      Header.length_encode]
    omega

private theorem isWhole_cut_iff {e : TransportError} {taken : Bytes} (he : e.stopsRead)
    (part : taken ≠ [] → ¬ IsWhole taken) :
    (Reception.mk (.error (.transport e)) taken.length).tearsDown = true ∨ IsWhole taken ↔
      (Reception.mk (.error (.transport e)) taken.length).derails = false := by
  by_cases hn : taken = []
  · subst hn
    simp only [isWhole_nil, or_true, true_iff]
    cases e <;> rfl
  · have pos : 0 < taken.length := List.length_pos_iff.mpr hn
    have inside := part hn
    cases e with
    | endOfStream | timedOut | io =>
      simp [Reception.tearsDown, Reception.derails, FrameError.isTimeout, FrameError.isDisconnect,
        TransportError.isTimeout, TransportError.isDisconnect, pos, inside]
    | _ => cases he

/-- What an attempt takes is whole unless it derails or costs the connection. -/
theorem Attempt.isWhole_iff {limits : Limits} {taken : Bytes} {r : Reception}
    (h : Attempt limits taken r.result) (hc : r.consumed = taken.length) :
    r.tearsDown = true ∨ IsWhole taken ↔ r.derails = false := by
  obtain ⟨result, consumed⟩ := r
  obtain rfl : consumed = taken.length := hc
  dsimp only at h
  cases h with
  | accepted hm => simp [Reception.derails, hm.toSized.isWhole]
  | unpacked hm => simp [Reception.derails, hm.isWhole]
  | @tooLarge header segment size limit hc =>
    have part : ¬ IsWhole header.encode := by
      intro w
      rw [← List.append_nil header.encode] at w
      have empty := w.body_le
      rw [List.length_nil] at empty
      have fits := (Header.check_eq_ok_iff header limits).mpr ⟨by omega, by omega⟩
      rw [fits] at hc
      cases hc
    simp [Reception.tearsDown, Reception.derails, FrameError.isTimeout, FrameError.isDisconnect,
      part]
  | cutHeader hl he =>
    refine isWhole_cut_iff he fun hn w => ?_
    have := w.header_le hn
    omega
  | cutBody hc hl he =>
    refine isWhole_cut_iff he fun _ w => ?_
    have := w.body_le
    omega

namespace ModuleContext

structure TornDown (x : ModuleContext) (router : ConnectionId) : Prop where
  gone : x.router = none
  unlisted : router ∉ x.table
  closed : x.isOpen router = false

/-- What was taken off the stream of a connection is whole envelopes. -/
def AtBoundary (x : ModuleContext) (router : ConnectionId) (stream : Bytes) : Prop :=
  ∃ c taken, x.connection? router = some c ∧ stream = taken ++ c.incoming.unread ∧ IsWhole taken

/-- The connection is given up, or its stream stands between two envelopes. -/
def Settled (x : ModuleContext) (router : ConnectionId) (stream : Bytes) : Prop :=
  x.TornDown router ∨ x.AtBoundary router stream

def arriving (router : ConnectionId) (x : ModuleContext) : RouterEvent → Bytes
  | .arrives bytes => if (x.connection? router).any (·.peerWrites bytes |>.1) then bytes else []
  | _ => []

def arrived (router : ConnectionId) (x : ModuleContext) : List RouterEvent → Bytes
  | [] => []
  | event :: events => x.arriving router event ++ (x.apply router event).2.arrived router events

/-- The connection is the router's, and the module looks after it. -/
structure Serves (x : ModuleContext) (router : ConnectionId) : Prop where
  attached : x.router = some router
  listed : router ∈ x.table

variable {x : ModuleContext} {router : ConnectionId} {stream : Bytes}

theorem Serves.handleClosed (h : x.Serves router) : (x.handleClosed router).2.TornDown router := by
  refine ⟨?_, ?_, ?_⟩
  · rw [router_handleClosed x router h.listed, if_pos h.attached]
  · rw [table_handleClosed]
    simp
  · rw [isOpen_handleClosed x router h.listed]
    simp

theorem AtBoundary.setConnection (h : x.AtBoundary router stream) {c d : Connection}
    {more : Bytes} (hc : x.connection? router = some c)
    (hd : d.incoming.unread = c.incoming.unread ++ more) :
    (x.setConnection router d).AtBoundary router (stream ++ more) := by
  obtain ⟨c', taken, hc', rfl, whole⟩ := h
  obtain rfl : c = c' := Option.some.inj (hc.symm.trans hc')
  exact ⟨d, taken, connection?_setConnection_self hc d, by rw [hd, List.append_assoc], whole⟩

/-- A search leaves the stream at a boundary exactly if its last attempt takes whole envelopes. -/
theorem AtBoundary.afterSearch_iff (h : x.AtBoundary router stream) {c : Connection}
    (hc : x.connection? router = some c) {s : Connection.Search} {limits : Limits}
    {messageRef : Int32} {last : Bytes} (of : s.Of c limits messageRef last) :
    (x.afterSearch router s).AtBoundary router stream ↔ IsWhole last := by
  obtain ⟨c', taken, hc', rfl, whole⟩ := h
  obtain rfl : c = c' := Option.some.inj (hc.symm.trans hc')
  have passed : IsWhole (s.passed.flatMap Envelope.wire) :=
    ⟨s.passed, fun m hm => (of.acceptable m hm).toSized, rfl⟩
  have now : (x.afterSearch router s).connection? router = some s.connection :=
    connection?_setConnection_self hc s.connection
  have start := whole.append passed
  have stream : taken ++ c.incoming.unread =
      (taken ++ s.passed.flatMap Envelope.wire ++ last) ++ s.connection.incoming.unread := by
    rw [of.yields.unread]
    simp only [List.append_assoc]
  constructor
  · rintro ⟨d, taken', hd, e, whole'⟩
    obtain rfl : s.connection = d := Option.some.inj (now.symm.trans hd)
    obtain rfl := List.append_cancel_right (stream.symm.trans e)
    exact start.of_append whole'
  · intro w
    exact ⟨s.connection, _, now, stream, start.append w⟩

private theorem tornDown_or_serves_waits (h : x.Serves router) (messageRef : Int32)
    (timeout : Option Span) (buffer : Option ReplyBuffer) :
    (x.waitInto messageRef timeout buffer).2.TornDown router ∨
      (x.waitInto messageRef timeout buffer).2.Serves router := by
  obtain ⟨-, kept, hw⟩ | ⟨id, c, s, last, hr, -, -, -, hw⟩ :=
    x.waitInto_cases messageRef timeout buffer
  · rw [hw]
    exact .inr ⟨h.attached, h.listed⟩
  · obtain rfl : id = router := Option.some.inj (hr.symm.trans h.attached)
    have serves : (x.afterSearch id s).Serves id := ⟨h.attached, h.listed⟩
    rw [hw]
    split
    · exact .inl serves.handleClosed
    · exact .inr serves

/-- A wait gives the connection up, or leaves it at a boundary, unless its attempt derails. -/
theorem AtBoundary.waits_iff (h : x.AtBoundary router stream) (serves : x.Serves router)
    (messageRef : Int32) (timeout : Option Span) (buffer : Option ReplyBuffer) :
    (x.waitInto messageRef timeout buffer).2.Settled router stream ↔
      ∀ r ∈ x.attempt (.waits messageRef timeout buffer), r.derails = false := by
  obtain ⟨none, kept, hw⟩ | ⟨id, c, s, last, hr, hc, of, some, hw⟩ :=
    x.waitInto_cases messageRef timeout buffer
  · rw [hw, none]
    simp only [Option.mem_def, reduceCtorEq, false_implies, implies_true, iff_true]
    exact .inr h
  · obtain rfl : id = router := Option.some.inj (hr.symm.trans serves.attached)
    have after : (x.afterSearch id s).Serves id := ⟨serves.attached, serves.listed⟩
    simp only [hw, some, Option.mem_def, Option.some.injEq, forall_eq']
    rw [← of.attempt.isWhole_iff of.consumed, ← h.afterSearch_iff hc of, Settled]
    cases hd : s.last.tearsDown with
    | true =>
      simp only [if_true, true_or, iff_true]
      exact .inl after.handleClosed
    | false =>
      simp only [Bool.false_eq_true, if_false, false_or]
      refine ⟨fun kept => kept.resolve_left fun torn => ?_, .inr⟩
      exact absurd (after.attached.symm.trans torn.gone) nofun

private theorem isOpen_setConnection {id : ConnectionId} {c d : Connection}
    (hc : x.connection? id = some c) (hd : d.isOpen = c.isOpen) :
    (x.setConnection id d).isOpen id = x.isOpen id := by
  simp only [isOpen]
  rw [connection?_setConnection_self hc, hc]
  simp [hd]

theorem isOpen_peerWrites (c : Connection) (bytes : Bytes) :
    (c.peerWrites bytes).2.isOpen = c.isOpen := by
  simp only [Connection.peerWrites]
  split <;> rfl

/-- A connection that was given up stays so, and no wait reads. -/
theorem TornDown.apply (h : x.TornDown router) (event : RouterEvent) :
    (x.apply router event).2.TornDown router ∧ x.attempt event = none := by
  cases event with
  | arrives bytes =>
    simp only [ModuleContext.apply]
    cases hc : x.connection? router with
    | none => exact ⟨by simpa only [hc] using h, rfl⟩
    | some c =>
      refine ⟨⟨h.gone, h.unlisted, ?_⟩, rfl⟩
      exact (isOpen_setConnection hc (isOpen_peerWrites c bytes)).trans h.closed
  | hangsUp =>
    simp only [ModuleContext.apply]
    cases hc : x.connection? router with
    | none => exact ⟨by simpa only [hc] using h, rfl⟩
    | some c =>
      refine ⟨⟨h.gone, h.unlisted, ?_⟩, rfl⟩
      rw [← h.closed]
      exact isOpen_setConnection hc rfl
  | takesInbound =>
    simp only [ModuleContext.apply, takeInbound]
    cases x.inbound <;> exact ⟨⟨h.gone, h.unlisted, h.closed⟩, rfl⟩
  | waits messageRef timeout buffer =>
    obtain ⟨none, kept, hw⟩ | ⟨id, c, s, last, hr, -⟩ := x.waitInto_cases messageRef timeout buffer
    · refine ⟨?_, none⟩
      show (x.waitInto messageRef timeout buffer).2.TornDown router
      rw [hw]
      exact ⟨h.gone, h.unlisted, h.closed⟩
    · exact absurd (h.gone.symm.trans hr) nofun

theorem Serves.apply (h : x.Serves router) (event : RouterEvent) :
    (x.apply router event).2.TornDown router ∨ (x.apply router event).2.Serves router := by
  cases event with
  | arrives bytes | hangsUp =>
    right
    simp only [ModuleContext.apply]
    cases x.connection? router <;> exact ⟨h.attached, h.listed⟩
  | takesInbound =>
    right
    simp only [ModuleContext.apply, takeInbound]
    cases x.inbound <;> exact ⟨h.attached, h.listed⟩
  | waits messageRef timeout buffer => exact tornDown_or_serves_waits h messageRef timeout buffer

theorem AtBoundary.apply_iff (h : x.AtBoundary router stream) (serves : x.Serves router)
    (event : RouterEvent) :
    (x.apply router event).2.Settled router (stream ++ x.arriving router event) ↔
      ∀ r ∈ x.attempt event, r.derails = false := by
  obtain ⟨c, -, hc, -⟩ := id h
  cases event with
  | arrives bytes =>
    simp only [attempt, Option.mem_def, reduceCtorEq, false_implies, implies_true, iff_true]
    right
    simp only [ModuleContext.apply, arriving, hc, Option.any_some]
    apply h.setConnection hc
    simp only [Connection.peerWrites]
    split
    · simp
    · simp
  | hangsUp =>
    simp only [attempt, Option.mem_def, reduceCtorEq, false_implies, implies_true, iff_true]
    right
    simp only [ModuleContext.apply, arriving, hc]
    exact h.setConnection hc (by simp [Connection.peerStopsWriting])
  | takesInbound =>
    simp only [attempt, Option.mem_def, reduceCtorEq, false_implies, implies_true, iff_true]
    right
    rw [show x.arriving router .takesInbound = [] from rfl, List.append_nil]
    simp only [ModuleContext.apply, takeInbound]
    cases x.inbound <;> exact h
  | waits messageRef timeout buffer =>
    rw [show x.arriving router (.waits messageRef timeout buffer) = [] from rfl, List.append_nil]
    exact h.waits_iff serves messageRef timeout buffer

theorem TornDown.after (h : x.TornDown router) (events : List RouterEvent) :
    (x.after router events).2.TornDown router ∧ x.attempts router events = [] := by
  induction events generalizing x with
  | nil => exact ⟨h, rfl⟩
  | cons event events ih =>
    obtain ⟨still, none⟩ := h.apply event
    obtain ⟨torn, nothing⟩ := ih still
    exact ⟨torn, by rw [attempts, none, nothing]; rfl⟩

private theorem settled_prefixes_cons (h : x.AtBoundary router stream) (event : RouterEvent)
    (events : List RouterEvent) :
    (∀ done, done <+: event :: events →
        (x.after router done).2.Settled router (stream ++ x.arrived router done)) ↔
      ∀ done, done <+: events → ((x.apply router event).2.after router done).2.Settled router
        (stream ++ x.arriving router event ++ (x.apply router event).2.arrived router done) := by
  have later : ∀ done, (x.after router (event :: done)).2.Settled router
        (stream ++ x.arrived router (event :: done)) ↔
      ((x.apply router event).2.after router done).2.Settled router
        (stream ++ x.arriving router event ++ (x.apply router event).2.arrived router done) := by
    intro done
    rw [List.append_assoc]
    rfl
  constructor
  · intro all done hd
    exact (later done).mp (all (event :: done) (List.cons_prefix_cons.mpr ⟨rfl, hd⟩))
  · intro all done hd
    rcases List.prefix_cons_iff.mp hd with rfl | ⟨rest, rfl, hr⟩
    · right
      simpa [ModuleContext.after, arrived] using h
    · exact (later rest).mpr (all rest hr)

/-- Throughout a run the connection is given up or its stream at a boundary, exactly if no attempt
of the run derails. -/
theorem settled_throughout_iff (h : x.AtBoundary router stream) (serves : x.Serves router)
    (events : List RouterEvent) :
    (∀ done, done <+: events →
        (x.after router done).2.Settled router (stream ++ x.arrived router done)) ↔
      ∀ r ∈ x.attempts router events, r.derails = false := by
  induction events generalizing x stream with
  | nil =>
    simp only [List.prefix_nil, forall_eq, attempts, List.not_mem_nil, false_implies, implies_true,
      iff_true]
    right
    simpa [ModuleContext.after, arrived] using h
  | cons event events ih =>
    have first := h.apply_iff serves event
    rw [settled_prefixes_cons h event events]
    simp only [attempts, List.mem_append, or_imp, forall_and, Option.mem_toList]
    by_cases hf : ∀ r ∈ x.attempt event, r.derails = false
    · refine Iff.trans ?_ (and_iff_right hf).symm
      rcases serves.apply event with torn | serves'
      · -- Nothing is read any more, so the rest of the run adds nothing to either side.
        rw [(torn.after events).2]
        simp only [List.not_mem_nil, false_implies, implies_true, iff_true]
        exact fun done _ => .inl (torn.after done).1
      · refine ih (?_ : AtBoundary _ _ _) serves'
        refine (first.mpr hf).resolve_left fun torn => ?_
        exact absurd (serves'.attached.symm.trans torn.gone) nofun
    · refine iff_of_false (fun all => hf (first.mp ?_)) fun all => hf all.1
      simpa [ModuleContext.after, arrived] using all [] List.nil_prefix

def partedEnvelope : List RouterEvent := [
  .arrives (Envelope.plain 3 noRef [1, 2]).wire, .waits 5 none none,
  .arrives ((Envelope.plain 3 noRef [1, 2]).wire.take 20), .waits 5 none none,
  .waits 5 none none]

theorem settled_throughout_partedEnvelope :
    quiet.AtBoundary 0 [] ∧ quiet.Serves 0 ∧
      ∀ done, done <+: partedEnvelope →
        (quiet.after 0 done).2.Settled 0 ([] ++ quiet.arrived 0 done) := by
  have start : quiet.AtBoundary 0 [] := ⟨_, [], rfl, rfl, isWhole_nil⟩
  have serves : quiet.Serves 0 := ⟨rfl, by decide⟩
  refine ⟨start, serves, (settled_throughout_iff start serves partedEnvelope).mpr ?_⟩
  decide +kernel

/-- The header of an envelope whose class segment is one byte over the limit. -/
def oversized : Header where
  classTotal := 16777217
  messageTotal := 0
  parentRef := noRef
  intent := queryReplyIntent
  classifier := (Classifier.outgoing 0).pack
  dispatchRef := noRef
  messageRef := 1

/-- The wait that refuses such an envelope has taken its header, and keeps the connection. -/
theorem not_settled_oversized :
    ¬ (quiet.after 0 [.arrives oversized.encode, .waits 1 none none]).2.Settled 0
      (quiet.arrived 0 [.arrives oversized.encode, .waits 1 none none]) := by
  have attached :
      (quiet.after 0 [.arrives oversized.encode, .waits 1 none none]).2.router = some 0 := by
    decide +kernel
  have taken : ((quiet.after 0 [.arrives oversized.encode, .waits 1 none none]).2.connection? 0).map
      (·.incoming.unread) = some [] := by decide +kernel
  have stream : quiet.arrived 0 [.arrives oversized.encode, .waits 1 none none] =
      oversized.encode ++ [] := by decide +kernel
  rintro (torn | ⟨c, bytes, hc, e, whole⟩)
  · exact absurd (attached.symm.trans torn.gone) nofun
  · rw [hc] at taken
    have none : c.incoming.unread = [] := Option.some.inj taken
    rw [stream, none, List.append_nil bytes] at e
    rw [← e] at whole
    exact absurd whole.body_le (by decide)

end ModuleContext

end ModuleLink
