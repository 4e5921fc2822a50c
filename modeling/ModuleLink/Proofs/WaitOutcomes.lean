import ModuleLink.Proofs.ConnectionTable
import ModuleLink.Proofs.ReplySearch

/-! # How a wait for a reply ends

A wait takes a pending reply, or is refused before it reads, or searches the router connection.
Here are the effects of each on the module. -/
namespace ModuleLink

def replies (ms : List Envelope) : List Envelope := ms.filter (·.intent = queryReplyIntent)

def otherTraffic (ms : List Envelope) : List Envelope := ms.filter (·.intent ≠ queryReplyIntent)

theorem isReplyTo_iff {messageRef : Int32} {m : Envelope} :
    isReplyTo messageRef m ↔ m.intent = queryReplyIntent ∧ m.messageRef = messageRef := by
  simp [isReplyTo]

theorem isReplyTo_of_ne {messageRef r : Int32} {m : Envelope} (h : isReplyTo messageRef m)
    (hr : messageRef ≠ r) : isReplyTo r m = false := by
  simp [isReplyTo, (isReplyTo_iff.mp h).2, hr]

/-- A failed attempt that costs the connection. -/
def Reception.tearsDown (r : Reception) : Bool :=
  match r.result with
  | .error e => if e.isTimeout then 0 < r.consumed else e.isDisconnect
  | .ok _ => false

namespace ModuleContext

/-- Looking among the pending replies: the first with the reference, or none has it. -/
theorem takePending_cases (x : ModuleContext) (messageRef : Int32) :
    (∃ before m after, x.pendingReplies = before ++ m :: after ∧
      (∀ p ∈ before, p.messageRef ≠ messageRef) ∧ m.messageRef = messageRef ∧
      x.takePending messageRef = (some m, { x with pendingReplies := before ++ after })) ∨
    (∀ p ∈ x.pendingReplies, p.messageRef ≠ messageRef) ∧
      x.takePending messageRef = (none, x) := by
  simp only [takePending]
  cases hi : x.pendingReplies.findIdx? (·.messageRef = messageRef) with
  | none => exact .inr ⟨by simpa using hi, rfl⟩
  | some i =>
    obtain ⟨hlt, hm, hfirst⟩ := List.findIdx?_eq_some_iff_getElem.mp hi
    refine .inl ⟨x.pendingReplies.take i, x.pendingReplies[i], x.pendingReplies.drop (i + 1),
      ?_, ?_, by simpa using hm, ?_⟩
    · rw [List.getElem_cons_drop, List.take_append_drop]
    · intro p hp
      obtain ⟨j, hj, rfl⟩ := List.getElem_of_mem hp
      rw [List.length_take] at hj
      rw [List.getElem_take]
      simpa using hfirst j (by omega)
    · simp only [List.getElem?_eq_getElem hlt, List.eraseIdx_eq_take_drop_succ]

/-- The connection that a wait may read now, or why it reads none. -/
def admission (x : ModuleContext) (timeout : Option Span) :
    Except PeerError (ConnectionId × Connection) :=
  match x.router, x.router.bind x.connection? with
  | some router, some c =>
    if timeout = some .zero then .error (waitedFor timeout)
    else
      match c.tryReader with
      | .error e => .error (.transport e)
      | .ok false => .error (waitedFor timeout)
      | .ok true => .ok (router, c)
  | _, _ => .error .notConnected

theorem waitInto_eq (x : ModuleContext) (messageRef : Int32) (timeout : Option Span)
    (buffer : Option ReplyBuffer) :
    x.waitInto messageRef timeout buffer =
      match x.takePending messageRef with
      | (some m, y) => (⟨finishReply m, buffer⟩, y)
      | (none, _) =>
        match x.admission timeout with
        | .error e => (⟨.error e, buffer⟩, x)
        | .ok (router, c) => x.readReply router c messageRef timeout buffer := by
  simp only [waitInto, admission]
  rcases x.takePending messageRef with ⟨_ | m, y⟩
  · cases hr : x.router with
    | none => rfl
    | some router =>
      cases hc : x.connection? router with
      | none => simp [hc]
      | some c =>
        simp only [Option.bind_some, hc]
        by_cases ht : timeout = some .zero
        · simp [ht]
        · simp only [ht, if_false]
          cases c.tryReader with
          | error e => rfl
          | ok free => cases free <;> rfl
  · rfl

theorem admission_ok {x : ModuleContext} {timeout : Option Span} {router : ConnectionId}
    {c : Connection} (h : x.admission timeout = .ok (router, c)) :
    x.router = some router ∧ x.connection? router = some c := by
  unfold admission at h
  split at h
  · rename_i id d hr hd
    rw [hr, Option.bind_some] at hd
    split at h
    · cases h
    · split at h
      · cases h
      · cases h
      · obtain ⟨rfl, rfl⟩ := Prod.mk.inj (Except.ok.inj h)
        exact ⟨hr, hd⟩
  · cases h

theorem admission_error {x : ModuleContext} {timeout : Option Span} {e : PeerError}
    (h : x.admission timeout = .error e) : e ≠ .nullReply := by
  unfold admission at h
  rintro rfl
  split at h
  · split at h
    · cases h
    · split at h <;> cases h
  · cases h

theorem foldl_setAside (router : ConnectionId) (ms : List Envelope) (x : ModuleContext) :
    ms.foldl (setAside router) x =
      { x with
        pendingReplies := x.pendingReplies ++ replies ms
        inbound := x.inbound ++ (otherTraffic ms).map (router, ·) } := by
  induction ms generalizing x with
  | nil => simp [replies, otherTraffic]
  | cons m ms ih =>
    rw [List.foldl_cons, ih]
    by_cases h : m.intent = queryReplyIntent
    · simp [setAside, h, replies, otherTraffic]
    · simp [setAside, h, replies, otherTraffic]

def afterSearch (x : ModuleContext) (router : ConnectionId) (s : Connection.Search) :
    ModuleContext :=
  { x.setConnection router s.connection with
    pendingReplies := x.pendingReplies ++ replies s.passed
    inbound := x.inbound ++ (otherTraffic s.passed).map (router, ·) }

def failure (timeout : Option Span) (e : FrameError) : PeerError :=
  if e.isTimeout then waitedFor timeout else .frame e

theorem failure_ne_nullReply (timeout : Option Span) (e : FrameError) :
    failure timeout e ≠ .nullReply := by
  simp only [failure]
  split <;> exact nofun

theorem failReception_eq (x : ModuleContext) (router : ConnectionId) (timeout : Option Span)
    (e : FrameError) (consumed : Nat) :
    x.failReception router timeout e consumed =
      (failure timeout e,
        if (Reception.mk (.error e) consumed).tearsDown then (x.handleClosed router).2 else x) := by
  simp only [failReception, failure, Reception.tearsDown]
  by_cases ht : e.isTimeout = true
  · simp [ht]
  · simp [ht]

/-- Reading for a reply is a search, and its last attempt may cost the connection. -/
theorem readReply_eq (x : ModuleContext) (router : ConnectionId) (c : Connection)
    (messageRef : Int32) (timeout : Option Span) (buffer : Option ReplyBuffer)
    {s : Connection.Search} (hs : c.search x.settings.limits messageRef buffer = s) :
    x.readReply router c messageRef timeout buffer =
      (⟨match s.last.result with
        | .ok m => finishReply m
        | .error e => .error (failure timeout e), s.buffer⟩,
        if s.last.tearsDown then ((x.afterSearch router s).handleClosed router).2
        else x.afterSearch router s) := by
  obtain ⟨passed, ⟨result, consumed⟩, buffer', d⟩ := s
  simp only [readReply]
  simp only [hs, foldl_setAside]
  cases result with
  | ok m => rfl
  | error e =>
    dsimp only
    rw [failReception_eq]
    rfl

/-- All ways in which a wait ends: with a reply that was set aside, refused before it reads, or with
what it read. -/
inductive WaitEnds (x : ModuleContext) (messageRef : Int32) (timeout : Option Span)
    (buffer : Option ReplyBuffer) (waited : Waited × ModuleContext) : Prop
  | kept (before : List Envelope) (m : Envelope) (after : List Envelope)
      (split : x.pendingReplies = before ++ m :: after)
      (others : ∀ p ∈ before, p.messageRef ≠ messageRef) (found : m.messageRef = messageRef)
      (pending : (x.takePending messageRef).1 = some m)
      (ends : waited = (⟨finishReply m, buffer⟩, { x with pendingReplies := before ++ after }))
  | refused (e : PeerError) (missing : ∀ p ∈ x.pendingReplies, p.messageRef ≠ messageRef)
      (pending : (x.takePending messageRef).1 = none) (refusal : x.admission timeout = .error e)
      (ends : waited = (⟨.error e, buffer⟩, x))
  | searched (router : ConnectionId) (c : Connection) (taken : Bytes)
      (missing : ∀ p ∈ x.pendingReplies, p.messageRef ≠ messageRef)
      (pending : (x.takePending messageRef).1 = none)
      (admitted : x.admission timeout = .ok (router, c))
      (of : (c.search x.settings.limits messageRef buffer).Of c x.settings.limits messageRef taken)
      (ends : waited = x.readReply router c messageRef timeout buffer)

theorem waitInto_ends (x : ModuleContext) (messageRef : Int32) (timeout : Option Span)
    (buffer : Option ReplyBuffer) :
    x.WaitEnds messageRef timeout buffer (x.waitInto messageRef timeout buffer) := by
  rw [waitInto_eq]
  obtain ⟨before, m, after, split, others, found, pending⟩ | ⟨missing, pending⟩ :=
    x.takePending_cases messageRef
  · rw [pending]
    exact .kept before m after split others found (congrArg Prod.fst pending) rfl
  · rw [pending]
    cases ha : x.admission timeout with
    | error e => exact .refused e missing (congrArg Prod.fst pending) ha rfl
    | ok admitted =>
      obtain ⟨router, c⟩ := admitted
      obtain ⟨taken, of⟩ := c.search_of x.settings.limits messageRef buffer
      exact .searched router c taken missing (congrArg Prod.fst pending) ha of rfl

theorem settings_readReply (x : ModuleContext) (router : ConnectionId) (c : Connection)
    (messageRef : Int32) (timeout : Option Span) (buffer : Option ReplyBuffer) :
    (x.readReply router c messageRef timeout buffer).2.settings = x.settings := by
  rw [readReply_eq x router c messageRef timeout buffer rfl]
  dsimp only
  split
  · rw [settings_handleClosed]
    rfl
  · rfl

end ModuleContext

end ModuleLink
