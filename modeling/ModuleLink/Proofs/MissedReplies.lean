import ModuleLink.Proofs.WaiterSteps

/-! # Replies that a waiting thread misses

Threads step in any order while envelopes arrive. A thread that receives has looked twice among the
pending replies, but another one that has let the read side go may still have the reply in its
hands. It may also be set aside only after the second look, or it was refused to another thread. -/
namespace ModuleLink

inductive WaitersEvent
  | steps (i : Nat)
  | arrives (bytes : Bytes)
  | hangsUp

namespace Waiters

def happen (router : ConnectionId) (s : Waiters) : WaitersEvent → Waiters
  | .steps i => s.step i
  | .arrives bytes => { s with context := (s.context.apply router (.arrives bytes)).2 }
  | .hangsUp => { s with context := (s.context.apply router .hangsUp).2 }

/-- The envelope that comes off the connection with an event, and the thread that reads it. -/
def taking (s : Waiters) : WaitersEvent → List (Nat × Taken)
  | .steps i => ((s.threads[i]?.bind (·.takes s.context)).map (i, ·)).toList
  | _ => []

def after (router : ConnectionId) (s : Waiters) (events : List WaitersEvent) : Waiters :=
  events.foldl (happen router) s

def takings (router : ConnectionId) (s : Waiters) : List WaitersEvent → List (Nat × Taken)
  | [] => []
  | event :: events => s.taking event ++ (s.happen router event).takings router events

/-- Threads that begin to wait for replies to different queries. -/
structure Fresh (s : Waiters) (router : ConnectionId) : Prop where
  looking : ∀ (i : Nat) (w : Waiter), s.threads[i]? = some w → w.phase = .look
  distinct : ∀ (i j : Nat) (v w : Waiter), s.threads[i]? = some v → s.threads[j]? = some w →
    v.messageRef = w.messageRef → i = j
  attached : ∀ id, s.context.router = some id → id = router

variable {s : Waiters} {router : ConnectionId}

theorem step_of_some {i : Nat} {w : Waiter} (h : s.threads[i]? = some w) :
    s.step i = ⟨(w.step s.context).2, s.threads.set i (w.step s.context).1⟩ := by
  simp only [step]
  rw [h]

theorem step_of_none {i : Nat} (h : s.threads[i]? = none) : s.step i = s := by
  simp only [step]
  rw [h]

/-- A thread after a step is the one that stepped, or as it was. -/
theorem threads_step {i j : Nat} {w v : Waiter} (h : s.threads[i]? = some w)
    (hv : (s.step i).threads[j]? = some v) :
    (j = i ∧ v = (w.step s.context).1) ∨ (j ≠ i ∧ s.threads[j]? = some v) := by
  rw [step_of_some h] at hv
  by_cases hj : j = i
  · subst hj
    have hl : j < s.threads.length := (List.getElem?_eq_some_iff.mp h).1
    rw [List.getElem?_set_self hl] at hv
    exact .inl ⟨rfl, (Option.some.inj hv).symm⟩
  · rw [List.getElem?_set_ne (Ne.symm hj)] at hv
    exact .inr ⟨hj, hv⟩

theorem threads_step_self {i : Nat} {w : Waiter} (h : s.threads[i]? = some w) :
    (s.step i).threads[i]? = some (w.step s.context).1 := by
  rw [step_of_some h]
  exact List.getElem?_set_self (List.getElem?_eq_some_iff.mp h).1

theorem threads_step_ne {i j : Nat} (h : j ≠ i) : (s.step i).threads[j]? = s.threads[j]? := by
  cases hw : s.threads[i]? with
  | none => rw [step_of_none hw]
  | some w =>
    rw [step_of_some hw]
    exact List.getElem?_set_ne (Ne.symm h)

private theorem apply_arrives (x : ModuleContext) (router : ConnectionId) (bytes : Bytes) :
    (x.apply router (.arrives bytes)).2.router = x.router ∧
      (x.apply router (.arrives bytes)).2.readHeld router = x.readHeld router := by
  simp only [ModuleContext.apply]
  cases hc : x.connection? router with
  | none => exact ⟨rfl, rfl⟩
  | some c =>
    refine ⟨rfl, ModuleContext.readHeld_setConnection hc ?_⟩
    simp only [Connection.peerWrites]
    split <;> rfl

private theorem apply_hangsUp (x : ModuleContext) (router : ConnectionId) :
    (x.apply router .hangsUp).2.router = x.router ∧
      (x.apply router .hangsUp).2.readHeld router = x.readHeld router := by
  simp only [ModuleContext.apply]
  cases hc : x.connection? router with
  | none => exact ⟨rfl, rfl⟩
  | some c => exact ⟨rfl, ModuleContext.readHeld_setConnection hc rfl⟩

/-- At most one thread has the read side of the connection, and then it is marked as held. -/
structure Locked (s : Waiters) (router : ConnectionId) : Prop where
  attached : ∀ id, s.context.router = some id → id = router
  known : ∀ (i : Nat) (w : Waiter), s.threads[i]? = some w →
    ∀ id, w.phase.holds = some id → id = router
  held : ∀ (i : Nat) (w : Waiter), s.threads[i]? = some w → w.phase.holds = some router →
    s.context.readHeld router = true
  alone : ∀ (i j : Nat) (v w : Waiter), s.threads[i]? = some v → s.threads[j]? = some w →
    v.phase.holds = some router → w.phase.holds = some router → i = j

theorem Fresh.locked (h : s.Fresh router) : s.Locked router := by
  have none : ∀ (i : Nat) (w : Waiter), s.threads[i]? = some w → w.phase.holds = none := by
    intro i w hw
    rw [h.looking i w hw]
    rfl
  refine ⟨h.attached, ?_, ?_, ?_⟩
  · intro i w hw id hid
    rw [none i w hw] at hid
    cases hid
  · intro i w hw hid
    rw [none i w hw] at hid
    cases hid
  · intro i j v w hv _ hid
    rw [none i v hv] at hid
    cases hid

/-- Whoever takes the read side finds it free, so nobody has it. -/
private theorem Locked.excludes (h : s.Locked router) {i j : Nat} {w v : Waiter}
    (hw : s.threads[i]? = some w) (hv : s.threads[j]? = some v) (hj : j ≠ i)
    (hid : v.phase.holds = some router) :
    (w.step s.context).1.phase.holds ≠ some router := by
  intro hid'
  have locks := w.step_locks (h.known i w hw) h.attached
  cases locks with
  | keeps same => exact hj (h.alone j i v w hv hw hid (same ▸ hid'))
  | takes free => exact absurd ((h.held j v hv hid).symm.trans free) nofun
  | letsGo _ gone => exact absurd (gone.symm.trans hid') nofun

theorem Locked.step (h : s.Locked router) (i : Nat) : (s.step i).Locked router := by
  cases hw : s.threads[i]? with
  | none => rwa [step_of_none hw]
  | some w =>
    have locks := w.step_locks (h.known i w hw) h.attached
    have context : (s.step i).context = (w.step s.context).2 := by rw [step_of_some hw]
    refine ⟨?_, ?_, ?_, ?_⟩
    · intro id hid
      rw [context] at hid
      exact h.attached id (Waiter.step_router hid)
    · intro j v hv id hid
      rcases threads_step hw hv with ⟨-, rfl⟩ | ⟨-, hv⟩
      · cases locks with
        | keeps same => exact h.known i w hw id (same ▸ hid)
        | takes _ got => exact Option.some.inj (hid.symm.trans got)
        | letsGo _ gone => exact absurd (gone.symm.trans hid) nofun
      · exact h.known j v hv id hid
    · intro j v hv hid
      rw [context]
      rcases threads_step hw hv with ⟨-, rfl⟩ | ⟨hj, hv⟩
      · cases locks with
        | keeps same held => exact held.trans (h.held i w hw (same ▸ hid))
        | takes _ _ held => exact held
        | letsGo _ gone => exact absurd (gone.symm.trans hid) nofun
      · cases locks with
        | keeps _ held => exact held.trans (h.held j v hv hid)
        | takes _ _ held => exact held
        | letsGo had => exact absurd (h.alone j i v w hv hw hid had) hj
    · intro j k u v hu hv hid hid'
      rcases threads_step hw hu with ⟨rfl, rfl⟩ | ⟨hj, hu'⟩
      · rcases threads_step hw hv with ⟨rfl, rfl⟩ | ⟨hk, hv'⟩
        · rfl
        · exact absurd hid (h.excludes hw hv' hk hid')
      · rcases threads_step hw hv with ⟨rfl, rfl⟩ | ⟨hk, hv'⟩
        · exact absurd hid' (h.excludes hw hu' hj hid)
        · exact h.alone j k u v hu' hv' hid hid'

theorem Locked.happen (h : s.Locked router) (event : WaitersEvent) :
    (s.happen router event).Locked router := by
  cases event with
  | steps i => exact h.step i
  | arrives bytes =>
    obtain ⟨same, held⟩ := apply_arrives s.context router bytes
    exact ⟨fun id hid => h.attached id (same ▸ hid), h.known,
      fun i w hw hid => held.trans (h.held i w hw hid), h.alone⟩
  | hangsUp =>
    obtain ⟨same, held⟩ := apply_hangsUp s.context router
    exact ⟨fun id hid => h.attached id (same ▸ hid), h.known,
      fun i w hw hid => held.trans (h.held i w hw hid), h.alone⟩

/-- Where a reply is that a thread has taken: in its hands, among the pending replies, or with a
caller that waited under its reference. -/
inductive Whereabouts (s : Waiters) (t : Nat × Taken) : Prop
  | inHand {w : Waiter} {m : Envelope} (hw : s.threads[t.1]? = some w)
      (hm : w.phase.inHand = some m) (header : m.header = t.2.header)
  | pending {p : Envelope} (hp : p ∈ s.context.pendingReplies) (header : p.header = t.2.header)
  | answered {i : Nat} {w : Waiter} (hw : s.threads[i]? = some w) (done : w.phase.isDone)
      (same : w.messageRef = t.2.header.messageRef)

/-- Every reply that was taken is somewhere. The pending replies that a thread missed were all taken
by others. -/
structure Tracked (s : Waiters) (log : List (Nat × Taken)) : Prop where
  distinct : ∀ (i j : Nat) (v w : Waiter), s.threads[i]? = some v → s.threads[j]? = some w →
    v.messageRef = w.messageRef → i = j
  logged : ∀ (i : Nat) (w : Waiter), s.threads[i]? = some w → ∀ m, w.phase.inHand = some m →
    (i, ⟨m.header, true⟩) ∈ log
  found : ∀ t ∈ log, t.2.accepted = true → t.2.header.intent = queryReplyIntent → s.Whereabouts t
  missed : ∀ (i : Nat) (w : Waiter), s.threads[i]? = some w → w.phase.receives →
    ∀ p ∈ s.context.pendingReplies, p.messageRef = w.messageRef →
      p.intent = queryReplyIntent ∧ ∃ t ∈ log, t.1 ≠ i ∧ t.2 = ⟨p.header, true⟩

theorem Fresh.tracked (h : s.Fresh router) : s.Tracked [] := by
  refine ⟨h.distinct, ?_, nofun, ?_⟩
  · intro i w hw m hm
    rw [h.looking i w hw] at hm
    cases hm
  · intro i w hw hr
    rw [h.looking i w hw] at hr
    cases hr

private theorem Tracked.distinct_step {log : List (Nat × Taken)} (h : s.Tracked log) (i : Nat) :
    ∀ (j k : Nat) (u v : Waiter), (s.step i).threads[j]? = some u →
      (s.step i).threads[k]? = some v → u.messageRef = v.messageRef → j = k := by
  have before : ∀ (j : Nat) (v : Waiter), (s.step i).threads[j]? = some v →
      ∃ v', s.threads[j]? = some v' ∧ v'.messageRef = v.messageRef := by
    intro j v hv
    cases hw : s.threads[i]? with
    | none => exact ⟨v, by rwa [step_of_none hw] at hv, rfl⟩
    | some w =>
      rcases threads_step hw hv with ⟨rfl, rfl⟩ | ⟨-, hv⟩
      · exact ⟨w, hw, (w.step_messageRef s.context).symm⟩
      · exact ⟨v, hv, rfl⟩
  intro j k u v hu hv e
  obtain ⟨u', hu', eu⟩ := before j u hu
  obtain ⟨v', hv', ev⟩ := before k v hv
  exact h.distinct j k u' v' hu' hv' (eu.trans (e.trans ev.symm))

section Step

variable {log : List (Nat × Taken)} {i : Nat} {w : Waiter}

private theorem Tracked.logged_step (h : s.Tracked log) (hw : s.threads[i]? = some w) :
    ∀ (j : Nat) (v : Waiter), (s.step i).threads[j]? = some v → ∀ m, v.phase.inHand = some m →
      (j, ⟨m.header, true⟩) ∈ log ++ ((w.takes s.context).map (i, ·)).toList := by
  intro j v hv m hm
  rcases threads_step hw hv with ⟨rfl, rfl⟩ | ⟨-, hv⟩
  · rcases (w.step_moves s.context).inHand_after hm with had | took
    · exact List.mem_append_left _ (h.logged j w hw m had)
    · rw [took]
      exact List.mem_append_right _ (List.mem_cons_self ..)
  · exact List.mem_append_left _ (h.logged j v hv m hm)

/-- A step moves a reply from the hands of a thread to the pending replies, or to a caller. -/
private theorem Whereabouts.step {t : Nat × Taken} (h : s.Whereabouts t)
    (reply : t.2.header.intent = queryReplyIntent) (hw : s.threads[i]? = some w) :
    (s.step i).Whereabouts t := by
  have moves := w.step_moves s.context
  have self := threads_step_self hw
  have context : (s.step i).context = (w.step s.context).2 := by rw [step_of_some hw]
  have given : ∀ m : Envelope, m.header = t.2.header → (w.step s.context).1.phase.isDone →
      m.messageRef = w.messageRef → (s.step i).Whereabouts t := by
    intro m header done found
    refine .answered self done ?_
    rw [w.step_messageRef s.context, ← found, ← header]
    rfl
  cases h with
  | @inHand v m hv hm header =>
    by_cases hi : t.1 = i
    · rw [hi] at hv
      obtain rfl := Option.some.inj (hv.symm.trans hw)
      rcases moves.inHand_before hm with hm' | ⟨done, found⟩ | aside
      · exact .inHand (hi ▸ self) hm' header
      · exact given m header done found
      · have kept : m.intent = queryReplyIntent := by rw [← reply, ← header]; rfl
        refine .pending (p := m) ?_ header
        rw [context, aside]
        exact List.mem_append_right _ (by simp [replies, kept])
    · exact .inHand (by rwa [threads_step_ne hi]) hm header
  | @pending p hp header =>
    rcases moves.pending_before hp with kept | ⟨done, found⟩
    · exact .pending (context ▸ kept) header
    · exact given p header done found
  | @answered j v hv done same =>
    by_cases hi : j = i
    · subst hi
      obtain rfl := Option.some.inj (hv.symm.trans hw)
      rw [Waiter.step_done done] at self
      exact .answered self done same
    · exact .answered (by rwa [threads_step_ne hi]) done same

private theorem Whereabouts.of_pending {t : Nat × Taken} {x : ModuleContext} (h : s.Whereabouts t)
    (same : x.pendingReplies = s.context.pendingReplies) :
    Whereabouts { s with context := x } t := by
  cases h with
  | inHand hw hm header => exact .inHand hw hm header
  | pending hp header => exact .pending (same.symm ▸ hp) header
  | answered hw done ref => exact .answered hw done ref

private theorem Tracked.found_step (h : s.Tracked log) (hw : s.threads[i]? = some w) :
    ∀ t ∈ log ++ ((w.takes s.context).map (i, ·)).toList, t.2.accepted = true →
      t.2.header.intent = queryReplyIntent → (s.step i).Whereabouts t := by
  have moves := w.step_moves s.context
  intro t ht accepted reply
  rcases List.mem_append.mp ht with ht | ht
  · exact (h.found t ht accepted reply).step reply hw
  · cases htakes : w.takes s.context with
    | none =>
      rw [htakes] at ht
      cases ht
    | some taken =>
      rw [htakes] at ht moves
      obtain rfl := List.mem_singleton.mp ht
      obtain ⟨m, hm, header⟩ := moves.accepted accepted
      exact .inHand (threads_step_self hw) hm header

private theorem Tracked.missed_step (h : s.Tracked log) (hw : s.threads[i]? = some w) :
    ∀ (j : Nat) (v : Waiter), (s.step i).threads[j]? = some v → v.phase.receives →
      ∀ p ∈ (w.step s.context).2.pendingReplies, p.messageRef = v.messageRef →
        p.intent = queryReplyIntent ∧
          ∃ t ∈ log ++ ((w.takes s.context).map (i, ·)).toList,
            t.1 ≠ j ∧ t.2 = ⟨p.header, true⟩ := by
  have moves := w.step_moves s.context
  intro j v hv hr p hp same
  rcases threads_step hw hv with ⟨rfl, rfl⟩ | ⟨hj, hv⟩
  · rw [w.step_messageRef s.context] at same
    exact absurd same (moves.receives hr p hp)
  · rcases moves.pending_after hp with before | ⟨hand, reply⟩
    · obtain ⟨reply, t, ht, other, taken⟩ := h.missed j v hv hr p before same
      exact ⟨reply, t, List.mem_append_left _ ht, other, taken⟩
    · exact ⟨reply, _, List.mem_append_left _ (h.logged i w hw p hand), Ne.symm hj, rfl⟩

end Step

theorem Tracked.step {log : List (Nat × Taken)} (h : s.Tracked log) (i : Nat) :
    (s.step i).Tracked (log ++ s.taking (.steps i)) := by
  cases hw : s.threads[i]? with
  | none =>
    rw [step_of_none hw, taking, hw]
    simpa using h
  | some w =>
    have context : (s.step i).context = (w.step s.context).2 := by rw [step_of_some hw]
    rw [taking, hw, Option.bind_some]
    refine ⟨h.distinct_step i, h.logged_step hw, h.found_step hw, ?_⟩
    rw [context]
    exact h.missed_step hw

theorem Tracked.happen {log : List (Nat × Taken)} (h : s.Tracked log) (event : WaitersEvent) :
    (s.happen router event).Tracked (log ++ s.taking event) := by
  cases event with
  | steps i => exact h.step i
  | arrives bytes =>
    rw [show s.taking (.arrives bytes) = [] from rfl, List.append_nil]
    have same : (s.context.apply router (.arrives bytes)).2.pendingReplies =
        s.context.pendingReplies := by
      simp only [ModuleContext.apply]
      cases s.context.connection? router <;> rfl
    exact ⟨h.distinct, h.logged, fun t ht ha hr => (h.found t ht ha hr).of_pending same,
      same.symm ▸ h.missed⟩
  | hangsUp =>
    rw [show s.taking .hangsUp = [] from rfl, List.append_nil]
    have same : (s.context.apply router .hangsUp).2.pendingReplies = s.context.pendingReplies := by
      simp only [ModuleContext.apply]
      cases s.context.connection? router <;> rfl
    exact ⟨h.distinct, h.logged, fun t ht ha hr => (h.found t ht ha hr).of_pending same,
      same.symm ▸ h.missed⟩

theorem invariants_after {log : List (Nat × Taken)} (locked : s.Locked router)
    (tracked : s.Tracked log) (events : List WaitersEvent) :
    (s.after router events).Locked router ∧
      (s.after router events).Tracked (log ++ s.takings router events) := by
  induction events generalizing s log with
  | nil =>
    rw [takings, List.append_nil]
    exact ⟨locked, tracked⟩
  | cons event events ih =>
    rw [takings, ← List.append_assoc]
    exact ih (locked.happen event) (tracked.happen event)

private theorem inHand_of_settle {p : WaitPhase} {id : ConnectionId} {r : Reception} {m : Envelope}
    (hp : p = .settle id r) (hr : r.result = .ok m) : p.inHand = some m := by
  simp [hp, WaitPhase.inHand, hr, Except.toOption]

private theorem settle_of_inHand {p : WaitPhase} {m : Envelope} (hm : p.inHand = some m)
    (free : ∀ id, p.holds ≠ some id) : ∃ id r, p = .settle id r ∧ r.result = .ok m := by
  cases p with
  | settle id r =>
    refine ⟨id, r, rfl, ?_⟩
    cases hr : r.result with
    | ok n =>
      simp only [WaitPhase.inHand, hr, Except.toOption, Option.some.injEq] at hm
      rw [hm]
    | error e => simp [WaitPhase.inHand, hr, Except.toOption] at hm
  | letGo id r => exact absurd rfl (free id)
  | _ => cases hm

/-- While a thread is about to receive, no other one has the read side. -/
private theorem Locked.free (h : s.Locked router) {i j : Nat} {w v : Waiter} {id : ConnectionId}
    (hw : s.threads[i]? = some w) (hr : w.phase = .receive id) (hv : s.threads[j]? = some v)
    (hj : j ≠ i) : ∀ other, v.phase.holds ≠ some other := by
  intro other hother
  have had : w.phase.holds = some id := by rw [hr]; rfl
  obtain rfl := h.known i w hw id had
  obtain rfl := h.known j v hv other hother
  exact hj (h.alone j i v w hv hw hother had)

/-- While a thread is about to receive, another one has taken its reply off the connection exactly
if that one has let the read side go and not set the reply aside yet, or the reply is pending, or it
was refused for its alignment. -/
theorem missed_iff (fresh : s.Fresh router) (events : List WaitersEvent) {i : Nat} {w : Waiter}
    {id : ConnectionId} (hw : (s.after router events).threads[i]? = some w)
    (hr : w.phase = .receive id) :
    (∃ t ∈ s.takings router events, t.1 ≠ i ∧ t.2.isReplyTo w.messageRef) ↔
      (∃ j v at_ r m, j ≠ i ∧ (s.after router events).threads[j]? = some v ∧
        v.phase = .settle at_ r ∧ r.result = .ok m ∧ isReplyTo w.messageRef m) ∨
      (∃ p ∈ (s.after router events).context.pendingReplies, isReplyTo w.messageRef p) ∨
      ∃ t ∈ s.takings router events, t.1 ≠ i ∧ t.2.accepted = false ∧
        t.2.isReplyTo w.messageRef := by
  obtain ⟨locked, tracked⟩ := invariants_after fresh.locked fresh.tracked events
  rw [List.nil_append] at tracked
  constructor
  · rintro ⟨t, ht, other, reply⟩
    have reply' : t.2.header.intent = queryReplyIntent ∧ t.2.header.messageRef = w.messageRef := by
      simpa [Taken.isReplyTo] using reply
    cases accepted : t.2.accepted with
    | false => exact .inr (.inr ⟨t, ht, other, accepted, reply⟩)
    | true =>
      cases tracked.found t ht accepted reply'.1 with
      | @inHand v m hv hm header =>
        left
        obtain ⟨at_, r, hp, hres⟩ := settle_of_inHand hm (locked.free hw hr hv other)
        exact ⟨t.1, v, at_, r, m, other, hv, hp, hres, t.2.isReplyTo_eq header _ ▸ reply⟩
      | @pending p hp header => exact .inr (.inl ⟨p, hp, t.2.isReplyTo_eq header _ ▸ reply⟩)
      | @answered j v hv done same =>
        obtain rfl := tracked.distinct j i v w hv hw (same.trans reply'.2)
        obtain rfl := Option.some.inj (hv.symm.trans hw)
        rw [hr] at done
        cases done
  · rintro (⟨j, v, at_, r, m, other, hv, hp, hres, reply⟩ | ⟨p, hp, reply⟩ |
      ⟨t, ht, other, -, reply⟩)
    · exact ⟨_, tracked.logged j v hv m (inHand_of_settle hp hres), other, reply⟩
    · obtain ⟨-, t, ht, other, taken⟩ :=
        tracked.missed i w hw (by rw [hr]; rfl) p hp (isReplyTo_iff.mp reply).2
      refine ⟨t, ht, other, ?_⟩
      rw [taken]
      exact reply
    · exact ⟨t, ht, other, reply⟩

def twoWaiters : Waiters where
  context := .quiet
  threads := [.start 1 none, .start 2 none]

/-- The reply to query 2 arrives. The first thread receives it and lets the read side go; before it
sets the reply aside the second one gets the read side and looks again. -/
def overtaken : List WaitersEvent :=
  .arrives (Envelope.plain queryReplyIntent 2 [5]).wire ::
    [0, 0, 0, 0, 0, 1, 1, 1].map WaitersEvent.steps

theorem twoWaiters_fresh : twoWaiters.Fresh 0 := by
  have two : ∀ (i : Nat) (w : Waiter), twoWaiters.threads[i]? = some w →
      (i = 0 ∧ w = .start 1 none) ∨ (i = 1 ∧ w = .start 2 none) := by
    intro i w h
    match i with
    | 0 => exact .inl ⟨rfl, (Option.some.inj h).symm⟩
    | 1 => exact .inr ⟨rfl, (Option.some.inj h).symm⟩
    | i + 2 => cases h
  refine ⟨?_, ?_, ?_⟩
  · intro i w h
    rcases two i w h with ⟨-, rfl⟩ | ⟨-, rfl⟩ <;> rfl
  · intro i j v w hv hw same
    rcases two i v hv with ⟨rfl, rfl⟩ | ⟨rfl, rfl⟩ <;>
      rcases two j w hw with ⟨rfl, rfl⟩ | ⟨rfl, rfl⟩ <;> first | rfl | cases same
  · intro id h
    exact (Option.some.inj h).symm

/-- The second thread is about to receive, and the first one has its reply. -/
theorem misses_overtaken :
    ((twoWaiters.after 0 overtaken).threads[1]?.map fun w => (w.messageRef, w.phase.receives)) =
        some (2, true) ∧
      ∃ t ∈ twoWaiters.takings 0 overtaken, t.1 ≠ 1 ∧ t.2.isReplyTo 2 := by
  decide +kernel

theorem missed_iff_overtaken :
    ∃ w, (twoWaiters.after 0 overtaken).threads[1]? = some w ∧ w.phase = .receive 0 ∧
      ((∃ j v at_ r m, j ≠ 1 ∧ (twoWaiters.after 0 overtaken).threads[j]? = some v ∧
        v.phase = .settle at_ r ∧ r.result = .ok m ∧ isReplyTo w.messageRef m) ∨
      (∃ p ∈ (twoWaiters.after 0 overtaken).context.pendingReplies, isReplyTo w.messageRef p) ∨
      ∃ t ∈ twoWaiters.takings 0 overtaken, t.1 ≠ 1 ∧ t.2.accepted = false ∧
        t.2.isReplyTo w.messageRef) := by
  have taken : ∃ t ∈ twoWaiters.takings 0 overtaken, t.1 ≠ 1 ∧ t.2.isReplyTo 2 := by
    decide +kernel
  have phase : ∃ w, (twoWaiters.after 0 overtaken).threads[1]? = some w ∧ w.phase = .receive 0 ∧
      w.messageRef = 2 := by
    refine ⟨_, rfl, ?_, ?_⟩
    · rfl
    · rfl
  obtain ⟨w, hw, hr, ref⟩ := phase
  exact ⟨w, hw, hr, (missed_iff twoWaiters_fresh overtaken hw hr).mp (ref ▸ taken)⟩

/-- A reply to query 2 whose sender padded its fields. -/
def paddedReply : Envelope :=
  let m := Envelope.plain queryReplyIntent 2 [5]
  { m with header := { m.header with classifier := (Classifier.mk 0 .host .host .word).pack } }

/-- The first thread is refused the reply to query 2, and is done before the second one looks. -/
def refused : List WaitersEvent :=
  .arrives paddedReply.wire :: [0, 0, 0, 0, 0, 0, 1, 1, 1].map WaitersEvent.steps

example :
    ((twoWaiters.after 0 refused).threads.map fun w => (w.messageRef, w.phase.isDone,
        w.phase.receives)) = [(1, true, false), (2, false, true)] ∧
      ∃ t ∈ twoWaiters.takings 0 refused, t.1 ≠ 1 ∧ t.2.isReplyTo 2 := by
  decide +kernel

end Waiters

end ModuleLink
