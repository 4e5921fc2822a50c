import ModuleLink.ReplyWaiters
import ModuleLink.Proofs.RouterEvents

/-! # What one step of a waiting thread does

A step may take or let go the read side, and it may move one envelope: off the connection into the
hands of the thread, from there to its caller or to the pending replies, or from these to a
caller. -/
namespace ModuleLink

namespace WaitPhase

def holds : WaitPhase → Option ConnectionId
  | lookAgain router | receive router | letGo router _ => some router
  | _ => none

/-- The envelope that the thread has taken, and neither returned nor set aside. -/
def inHand : WaitPhase → Option Envelope
  | letGo _ r | settle _ r => r.result.toOption
  | _ => none

/-- The thread has looked twice, and receives next. -/
def receives : WaitPhase → Bool
  | receive _ => true
  | _ => false

def isDone : WaitPhase → Bool
  | done _ => true
  | _ => false

end WaitPhase

/-- A whole envelope that came off a connection, accepted or refused for its alignment. -/
structure Taken where
  header : Header
  accepted : Bool
  deriving DecidableEq

def Taken.isReplyTo (messageRef : Int32) (t : Taken) : Bool :=
  t.header.intent = queryReplyIntent ∧ t.header.messageRef = messageRef

theorem Taken.isReplyTo_eq {t : Taken} {m : Envelope} (h : m.header = t.header)
    (messageRef : Int32) : t.isReplyTo messageRef = ModuleLink.isReplyTo messageRef m := by
  simp only [Taken.isReplyTo]
  rw [← h]
  rfl

namespace ModuleContext

def readHeld (x : ModuleContext) (id : ConnectionId) : Bool :=
  (x.connection? id).any (·.readHeld)

theorem readHeld_setConnection {x : ModuleContext} {id : ConnectionId} {c d : Connection}
    (hc : x.connection? id = some c) (hd : d.readHeld = c.readHeld) :
    (x.setConnection id d).readHeld id = x.readHeld id := by
  simp only [readHeld]
  rw [connection?_setConnection_self hc, hc]
  simp [hd]

theorem readHeld_handleClosed (x : ModuleContext) (id other : ConnectionId) :
    (x.handleClosed id).2.readHeld other = x.readHeld other := by
  by_cases h : id ∈ x.table
  · simp only [readHeld]
    rw [connection?_handleClosed x id h]
    by_cases ho : other = id
    · subst ho
      cases x.connection? other <;> simp [Connection.invalidate]
    · simp [ho]
  · rw [handleClosed_of_not_mem h]

end ModuleContext

namespace Waiter

/-- The whole envelope that the next step of a thread takes off the connection. -/
def takes (w : Waiter) (x : ModuleContext) : Option Taken :=
  match w.phase with
  | .receive router =>
    match x.connection? router with
    | some c =>
      match (c.receiveReply x.settings.limits w.buffer).1.result with
      | .ok m => some ⟨m.header, true⟩
      | .error (.unsupportedAlignment _) => some ⟨.decode c.incoming.unread, false⟩
      | .error _ => none
    | none => none
  | _ => none

inductive Moves (w : Waiter) (kept : List Envelope) : Option Taken → Waiter → List Envelope → Prop
  | keeps {w' : Waiter} (hand : w'.phase.inHand = w.phase.inHand) (still : ¬ w'.phase.receives) :
      Moves w kept none w' kept
  | misses {w' : Waiter} (missing : ∀ p ∈ kept, p.messageRef ≠ w.messageRef)
      (hand : w.phase.inHand = none) (hand' : w'.phase.inHand = none) : Moves w kept none w' kept
  | finds {w' : Waiter} {before after : List Envelope} {m : Envelope}
      (split : kept = before ++ m :: after) (found : m.messageRef = w.messageRef)
      (hand : w.phase.inHand = none) (done : w'.phase.isDone) :
      Moves w kept none w' (before ++ after)
  | takes {w' : Waiter} {m : Envelope} (hand : w.phase.inHand = none)
      (hand' : w'.phase.inHand = some m) (still : ¬ w'.phase.receives) :
      Moves w kept (some ⟨m.header, true⟩) w' kept
  | refuses {w' : Waiter} {h : Header} (hand : w.phase.inHand = none)
      (hand' : w'.phase.inHand = none) (still : ¬ w'.phase.receives) :
      Moves w kept (some ⟨h, false⟩) w' kept
  | returns {w' : Waiter} {m : Envelope} (hand : w.phase.inHand = some m)
      (reply : isReplyTo w.messageRef m) (done : w'.phase.isDone) : Moves w kept none w' kept
  | setsAside {w' : Waiter} {m : Envelope} (hand : w.phase.inHand = some m)
      (other : isReplyTo w.messageRef m = false) (hand' : w'.phase.inHand = none)
      (still : ¬ w'.phase.receives) :
      Moves w kept none w' (kept ++ replies [m])

private theorem inHand_of_isDone {p : WaitPhase} (h : p.isDone) : p.inHand = none := by
  cases p with
  | done => rfl
  | _ => cases h

private theorem not_receives_of_isDone {p : WaitPhase} (h : p.isDone) : ¬ p.receives := by
  cases p with
  | done => exact nofun
  | _ => cases h

section Moves

variable {w w' : Waiter} {kept kept' : List Envelope} {t : Option Taken} {m : Envelope}

/-- What a thread has in its hands after a step it had before, or has just taken. -/
theorem Moves.inHand_after (h : w.Moves kept t w' kept') (hm : w'.phase.inHand = some m) :
    w.phase.inHand = some m ∨ t = some ⟨m.header, true⟩ := by
  cases h with
  | keeps hand => exact .inl (hand.symm.trans hm)
  | misses _ _ hand' => exact absurd (hand'.symm.trans hm) nofun
  | finds _ _ _ done => exact absurd ((inHand_of_isDone done).symm.trans hm) nofun
  | takes _ hand' =>
    obtain rfl := Option.some.inj (hand'.symm.trans hm)
    exact .inr rfl
  | refuses _ hand' => exact absurd (hand'.symm.trans hm) nofun
  | returns _ _ done => exact absurd ((inHand_of_isDone done).symm.trans hm) nofun
  | setsAside _ _ hand' => exact absurd (hand'.symm.trans hm) nofun

/-- What a thread has in its hands it keeps there, returns as its reply, or sets aside. -/
theorem Moves.inHand_before (h : w.Moves kept t w' kept') (hm : w.phase.inHand = some m) :
    w'.phase.inHand = some m ∨ (w'.phase.isDone ∧ m.messageRef = w.messageRef) ∨
      kept' = kept ++ replies [m] := by
  cases h with
  | keeps hand => exact .inl (hand.trans hm)
  | misses _ hand => exact absurd (hand.symm.trans hm) nofun
  | finds _ _ hand => exact absurd (hand.symm.trans hm) nofun
  | takes hand => exact absurd (hand.symm.trans hm) nofun
  | refuses hand => exact absurd (hand.symm.trans hm) nofun
  | returns hand reply done =>
    obtain rfl := Option.some.inj (hand.symm.trans hm)
    exact .inr (.inl ⟨done, (isReplyTo_iff.mp reply).2⟩)
  | setsAside hand =>
    obtain rfl := Option.some.inj (hand.symm.trans hm)
    exact .inr (.inr rfl)

/-- A pending reply stays, or it is returned to the thread that waits for it. -/
theorem Moves.pending_before (h : w.Moves kept t w' kept') (hm : m ∈ kept) :
    m ∈ kept' ∨ (w'.phase.isDone ∧ m.messageRef = w.messageRef) := by
  cases h with
  | keeps | misses | takes | refuses | returns => exact .inl hm
  | setsAside => exact .inl (List.mem_append_left _ hm)
  | finds split found _ done =>
    rw [split] at hm
    rcases List.mem_append.mp hm with hm | hm
    · exact .inl (List.mem_append_left _ hm)
    · rcases List.mem_cons.mp hm with rfl | hm
      · exact .inr ⟨done, found⟩
      · exact .inl (List.mem_append_right _ hm)

/-- A pending reply was pending before, or the thread has set it aside. -/
theorem Moves.pending_after (h : w.Moves kept t w' kept') (hm : m ∈ kept') :
    m ∈ kept ∨ (w.phase.inHand = some m ∧ m.intent = queryReplyIntent) := by
  cases h with
  | keeps | misses | takes | refuses | returns => exact .inl hm
  | finds split =>
    rw [split]
    rcases List.mem_append.mp hm with hm | hm
    · exact .inl (List.mem_append_left _ hm)
    · exact .inl (List.mem_append_right _ (List.mem_cons_of_mem _ hm))
  | setsAside hand =>
    rcases List.mem_append.mp hm with hm | hm
    · exact .inl hm
    · obtain ⟨he, hi⟩ := List.mem_filter.mp hm
      obtain rfl := List.mem_singleton.mp he
      exact .inr ⟨hand, by simpa using hi⟩

theorem Moves.accepted {taken : Taken} (h : w.Moves kept (some taken) w' kept')
    (ha : taken.accepted = true) : ∃ m, w'.phase.inHand = some m ∧ m.header = taken.header := by
  cases h with
  | takes _ hand' => exact ⟨_, hand', rfl⟩
  | refuses => cases ha

/-- A thread that goes on to receive has just missed its reply among the pending ones. -/
theorem Moves.receives (h : w.Moves kept t w' kept') (hr : w'.phase.receives) :
    ∀ p ∈ kept', p.messageRef ≠ w.messageRef := by
  cases h with
  | misses missing => exact missing
  | keeps _ still => exact absurd hr still
  | takes _ _ still => exact absurd hr still
  | refuses _ _ still => exact absurd hr still
  | setsAside _ _ _ still => exact absurd hr still
  | finds _ _ _ done => exact absurd hr (not_receives_of_isDone done)
  | returns _ _ done => exact absurd hr (not_receives_of_isDone done)

end Moves

theorem step_messageRef (w : Waiter) (x : ModuleContext) :
    (w.step x).1.messageRef = w.messageRef := by
  simp only [step]
  repeat' split
  all_goals rfl

theorem step_done {w : Waiter} (h : w.phase.isDone) (x : ModuleContext) : w.step x = (w, x) := by
  simp only [step]
  cases hp : w.phase with
  | done r => rfl
  | _ => rw [hp] at h; cases h

@[simp] theorem pendingReplies_holdReader (x : ModuleContext) (id : ConnectionId) (held : Bool) :
    (holdReader x id held).pendingReplies = x.pendingReplies := by
  simp only [holdReader]
  split <;> rfl

@[simp] theorem router_holdReader (x : ModuleContext) (id : ConnectionId) (held : Bool) :
    (holdReader x id held).router = x.router := by
  simp only [holdReader]
  split <;> rfl

theorem readHeld_holdReader (x : ModuleContext) (id : ConnectionId) (held : Bool) :
    (holdReader x id held).readHeld id = ((x.connection? id).isSome && held) := by
  simp only [holdReader, ModuleContext.readHeld]
  cases hc : x.connection? id with
  | none => simp [hc]
  | some c => simp [ModuleContext.connection?_setConnection_self hc]

private theorem look_moves {w : Waiter} (hp : w.phase = .look) (x : ModuleContext) :
    w.Moves x.pendingReplies (w.takes x) (w.step x).1 (w.step x).2.pendingReplies := by
  have hand : w.phase.inHand = none := by rw [hp]; rfl
  have nothing : w.takes x = none := by unfold takes; rw [hp]
  rw [nothing]
  simp only [step]
  rw [hp]
  obtain ⟨before, m, after, split, -, found, ht⟩ | ⟨-, ht⟩ := x.takePending_cases w.messageRef
  · simp only [ht]
    exact .finds split found hand rfl
  · simp only [ht]
    exact .keeps (by rw [hand]; rfl) nofun

private theorem reach_moves {w : Waiter} (hp : w.phase = .reach) (x : ModuleContext) :
    w.Moves x.pendingReplies (w.takes x) (w.step x).1 (w.step x).2.pendingReplies := by
  have hand : w.phase.inHand = none := by rw [hp]; rfl
  have nothing : w.takes x = none := by unfold takes; rw [hp]
  rw [nothing]
  simp only [step]
  rw [hp]
  dsimp only
  split
  · split
    · exact .keeps (by rw [hand]; rfl) nofun
    · split
      · exact .keeps (by rw [hand]; rfl) nofun
      · exact .keeps (by rw [hand]; rfl) nofun
      · rw [pendingReplies_holdReader]
        exact .keeps (by rw [hand]; rfl) nofun
  · exact .keeps (by rw [hand]; rfl) nofun

private theorem lookAgain_moves {w : Waiter} {id : ConnectionId} (hp : w.phase = .lookAgain id)
    (x : ModuleContext) :
    w.Moves x.pendingReplies (w.takes x) (w.step x).1 (w.step x).2.pendingReplies := by
  have hand : w.phase.inHand = none := by rw [hp]; rfl
  have nothing : w.takes x = none := by unfold takes; rw [hp]
  rw [nothing]
  simp only [step]
  rw [hp]
  obtain ⟨before, m, after, split, -, found, ht⟩ | ⟨missing, ht⟩ := x.takePending_cases w.messageRef
  · simp only [ht, pendingReplies_holdReader]
    exact .finds split found hand rfl
  · simp only [ht]
    exact .misses missing hand rfl

private theorem receive_moves {w : Waiter} {id : ConnectionId} (hp : w.phase = .receive id)
    (x : ModuleContext) :
    w.Moves x.pendingReplies (w.takes x) (w.step x).1 (w.step x).2.pendingReplies := by
  have hand : w.phase.inHand = none := by rw [hp]; rfl
  unfold takes step
  rw [hp]
  dsimp only
  cases hc : x.connection? id with
  | none => exact .keeps (by rw [hand]; rfl) nofun
  | some c =>
    dsimp only
    generalize c.receiveReply x.settings.limits w.buffer = received
    obtain ⟨r, b, d⟩ := received
    cases he : r.result with
    | ok m =>
      exact .takes hand (by simp [WaitPhase.inHand, he, Except.toOption]) nofun
    | error e =>
      have empty : (WaitPhase.letGo id r).inHand = none := by
        simp [WaitPhase.inHand, he, Except.toOption]
      cases e with
      | unsupportedAlignment code =>
        exact .refuses hand empty nofun
      | _ =>
        exact .keeps (hand.symm ▸ empty) nofun

private theorem settle_moves {w : Waiter} {id : ConnectionId} {r : Reception}
    (hp : w.phase = .settle id r) (x : ModuleContext) :
    w.Moves x.pendingReplies (w.takes x) (w.step x).1 (w.step x).2.pendingReplies := by
  have nothing : w.takes x = none := by unfold takes; rw [hp]
  rw [nothing]
  simp only [step]
  rw [hp]
  dsimp only
  cases he : r.result with
  | ok m =>
    have hand : w.phase.inHand = some m := by
      simp [hp, WaitPhase.inHand, he, Except.toOption]
    by_cases reply : isReplyTo w.messageRef m = true
    · simp only [reply, if_true]
      exact .returns hand reply rfl
    · have other : isReplyTo w.messageRef m = false := by simpa using reply
      have aside := congrArg ModuleContext.pendingReplies (ModuleContext.foldl_setAside id [m] x)
      rw [List.foldl_cons, List.foldl_nil] at aside
      simp only [other, Bool.false_eq_true, if_false, aside]
      exact .setsAside hand other rfl nofun
  | error e =>
    have hand : w.phase.inHand = none := by
      simp [hp, WaitPhase.inHand, he, Except.toOption]
    have same : (x.failReception id w.timeout e r.consumed).2.pendingReplies =
        x.pendingReplies := by
      rw [ModuleContext.failReception_eq]
      dsimp only
      split <;> simp
    dsimp only
    rw [same]
    exact .keeps (by rw [hand]; rfl) nofun

/-- Every step is one of the moves. -/
theorem step_moves (w : Waiter) (x : ModuleContext) :
    w.Moves x.pendingReplies (w.takes x) (w.step x).1 (w.step x).2.pendingReplies := by
  cases hp : w.phase with
  | look => exact look_moves hp x
  | reach => exact reach_moves hp x
  | lookAgain id => exact lookAgain_moves hp x
  | receive id => exact receive_moves hp x
  | letGo id r =>
    have nothing : w.takes x = none := by unfold takes; rw [hp]
    rw [nothing]
    simp only [step]
    rw [hp]
    dsimp only
    rw [pendingReplies_holdReader]
    exact .keeps (by rw [hp]; rfl) nofun
  | settle id r => exact settle_moves hp x
  | done r =>
    have nothing : w.takes x = none := by unfold takes; rw [hp]
    rw [nothing, step_done (by rw [hp]; rfl)]
    exact .keeps rfl (by rw [hp]; nofun)

inductive Locks (router : ConnectionId) (w : Waiter) (x : ModuleContext) (w' : Waiter)
    (x' : ModuleContext) : Prop
  | keeps (same : w'.phase.holds = w.phase.holds)
      (held : x'.readHeld router = x.readHeld router)
  | takes (free : x.readHeld router = false) (got : w'.phase.holds = some router)
      (held : x'.readHeld router = true)
  | letsGo (had : w.phase.holds = some router) (gone : w'.phase.holds = none)
      (free : x'.readHeld router = false)

private theorem reach_locks {w : Waiter} {x : ModuleContext} {router : ConnectionId}
    (hx : ∀ id, x.router = some id → id = router) (hp : w.phase = .reach) :
    w.Locks router x (w.step x).1 (w.step x).2 := by
  have holds : w.phase.holds = none := by rw [hp]; rfl
  simp only [step]
  rw [hp]
  dsimp only
  split
  · rename_i id c hr hc
    obtain rfl := hx id hr
    rw [hr, Option.bind_some] at hc
    split
    · exact .keeps (by rw [holds]; rfl) rfl
    · split
      · exact .keeps (by rw [holds]; rfl) rfl
      · exact .keeps (by rw [holds]; rfl) rfl
      · rename_i ht
        have free : c.readHeld = false := by
          unfold Connection.tryReader Connection.ensureOpen at ht
          cases ho : c.isOpen <;> simp [ho, bind, Except.bind, pure, Except.pure] at ht
          exact ht
        refine .takes (by simp [ModuleContext.readHeld, hc, free]) rfl ?_
        rw [readHeld_holdReader, hc]
        rfl
  · exact .keeps (by rw [holds]; rfl) rfl

private theorem receive_locks {w : Waiter} {x : ModuleContext} {router : ConnectionId}
    (hp : w.phase = .receive router) : w.Locks router x (w.step x).1 (w.step x).2 := by
  have holds : w.phase.holds = some router := by rw [hp]; rfl
  simp only [step]
  rw [hp]
  dsimp only
  cases hc : x.connection? router with
  | none => exact .letsGo holds rfl (by simp [ModuleContext.readHeld, hc])
  | some c =>
    dsimp only
    rcases hr : c.receiveReply x.settings.limits w.buffer with ⟨r, b, d⟩
    obtain ⟨-, -, -, -, hd⟩ := Connection.receiveReply_attempt hr
    refine .keeps (by rw [holds]; rfl) (ModuleContext.readHeld_setConnection hc ?_)
    rw [hd]

private theorem settle_locks {w : Waiter} {x : ModuleContext} {router id : ConnectionId}
    {r : Reception} (hp : w.phase = .settle id r) :
    w.Locks router x (w.step x).1 (w.step x).2 := by
  have holds : w.phase.holds = none := by rw [hp]; rfl
  simp only [step]
  rw [hp]
  dsimp only
  cases r.result with
  | ok m =>
    dsimp only
    split
    · exact .keeps (by rw [holds]; rfl) rfl
    · refine .keeps (by rw [holds]; rfl) ?_
      simp only [ModuleContext.setAside]
      split <;> rfl
  | error e =>
    refine .keeps (by rw [holds]; rfl) ?_
    dsimp only
    rw [ModuleContext.failReception_eq]
    dsimp only
    split
    · exact x.readHeld_handleClosed id router
    · rfl

/-- A step takes the read side only if it is free, and lets go only what the thread has. -/
theorem step_locks {w : Waiter} {x : ModuleContext} {router : ConnectionId}
    (hw : ∀ id, w.phase.holds = some id → id = router)
    (hx : ∀ id, x.router = some id → id = router) :
    w.Locks router x (w.step x).1 (w.step x).2 := by
  cases hp : w.phase with
  | look =>
    simp only [step]
    rw [hp]
    obtain ⟨before, m, after, -, -, -, ht⟩ | ⟨-, ht⟩ := x.takePending_cases w.messageRef
    · simp only [ht]
      exact .keeps (by rw [hp]; rfl) rfl
    · simp only [ht]
      exact .keeps (by rw [hp]; rfl) rfl
  | reach => exact reach_locks hx hp
  | lookAgain id =>
    obtain rfl := hw id (by rw [hp]; rfl)
    simp only [step]
    rw [hp]
    obtain ⟨before, m, after, -, -, -, ht⟩ | ⟨-, ht⟩ := x.takePending_cases w.messageRef
    · simp only [ht]
      exact .letsGo (by rw [hp]; rfl) rfl (by rw [readHeld_holdReader, Bool.and_false])
    · simp only [ht]
      exact .keeps (by rw [hp]; rfl) rfl
  | receive id =>
    obtain rfl := hw id (by rw [hp]; rfl)
    exact receive_locks hp
  | letGo id r =>
    obtain rfl := hw id (by rw [hp]; rfl)
    simp only [step]
    rw [hp]
    exact .letsGo (by rw [hp]; rfl) rfl (by rw [readHeld_holdReader, Bool.and_false])
  | settle id r => exact settle_locks hp
  | done r =>
    rw [step_done (by rw [hp]; rfl)]
    exact .keeps rfl rfl

private theorem router_takePending (x : ModuleContext) (messageRef : Int32) :
    (x.takePending messageRef).2.router = x.router := by
  simp only [ModuleContext.takePending]
  split <;> rfl

theorem step_router {w : Waiter} {x : ModuleContext} {id : ConnectionId}
    (h : (w.step x).2.router = some id) : x.router = some id := by
  unfold step at h
  cases hp : w.phase with
  | look | lookAgain _ =>
    have same := router_takePending x w.messageRef
    rw [hp] at h
    rcases ht : x.takePending w.messageRef with ⟨_ | m, y⟩
    · simpa only [ht] using h
    · rw [ht] at same
      have left : y.router = some id := by simpa [ht] using h
      exact same.symm.trans left
  | reach =>
    rw [hp] at h
    dsimp only at h
    split at h
    · split at h
      · exact h
      · split at h
        · exact h
        · exact h
        · rwa [router_holdReader] at h
    · exact h
  | receive _ =>
    rw [hp] at h
    dsimp only at h
    split at h <;> exact h
  | letGo _ _ =>
    rw [hp] at h
    rwa [router_holdReader] at h
  | settle _ r =>
    rw [hp] at h
    dsimp only at h
    split at h
    · split at h
      · exact h
      · unfold ModuleContext.setAside at h
        split at h <;> exact h
    · rw [ModuleContext.failReception_eq] at h
      dsimp only at h
      split at h
      · exact ModuleContext.router_of_handleClosed x _ h
      · exact h
  | done _ =>
    rw [hp] at h
    exact h

end Waiter

end ModuleLink
