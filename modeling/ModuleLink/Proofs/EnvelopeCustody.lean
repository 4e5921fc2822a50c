import Mathlib.Data.List.Forall2
import ModuleLink.Proofs.EnvelopeHandling
import ModuleLink.Proofs.StreamPosition

/-! # Where the envelopes are that several waiting threads read

Every envelope that comes off the router connection gets the next number, and a ledger says which
numbers are in the hands of which thread, among the pending replies, in the inbound queue, dropped,
or returned by which thread. However the threads step, every number is in one place, and what the
ledger says is what the threads and the two queues hold. -/
namespace ModuleLink

/-- An envelope and the thread that read it; none did if it was pending from the start. -/
structure Item where
  reader : Option Nat
  envelope : Envelope

structure Ledger where
  items : List Item
  /-- Numbers that threads have in their hands. -/
  held : List (Nat × Nat) := []
  pending : List Nat
  filed : List Nat := []
  /-- Numbers of envelopes that were dropped for their alignment. -/
  refused : List Nat := []
  returned : List (Nat × Nat) := []

namespace Ledger

def opening (pending : List Envelope) : Ledger where
  items := pending.map (⟨none, ·⟩)
  pending := List.range pending.length

def under (pairs : List (Nat × Nat)) (i : Nat) : List Nat := (pairs.filter (·.1 = i)).map Prod.snd

def release (l : Ledger) (i : Nat) : Ledger := { l with held := l.held.filter (·.1 ≠ i) }

def record (l : Ledger) (i : Nat) : Handling → Ledger
  | .nothing => l
  | .takes m =>
    { l with items := l.items ++ [⟨some i, m⟩], held := l.held ++ [(i, l.items.length)] }
  | .refuses m =>
    { l with items := l.items ++ [⟨some i, m⟩], refused := l.refused ++ [l.items.length] }
  | .finds place =>
    { l with
      pending := l.pending.eraseIdx place
      returned := l.returned ++ l.pending[place]?.toList.map (i, ·) }
  | .returns => { l.release i with returned := l.returned ++ (under l.held i).map (i, ·) }
  | .keeps => { l.release i with pending := l.pending ++ under l.held i }
  | .files => { l.release i with filed := l.filed ++ under l.held i }

def numbers (l : Ledger) : List Nat :=
  l.held.map Prod.snd ++ l.pending ++ l.filed ++ l.refused ++ l.returned.map Prod.snd

def read (l : Ledger) : List Envelope := (l.items.filter (·.reader.isSome)).map Item.envelope

/-- Every envelope is in exactly one place. -/
def Accounted (l : Ledger) : Prop := l.numbers.Perm (List.range l.items.length)

variable {l : Ledger} {i j : Nat}

@[simp] theorem under_append (ps qs : List (Nat × Nat)) (i : Nat) :
    under (ps ++ qs) i = under ps i ++ under qs i := by
  simp [under]

theorem under_map_self (i : Nat) (ns : List Nat) : under (ns.map (i, ·)) i = ns := by
  induction ns with
  | nil => rfl
  | cons n ns ih => simpa [under] using ih

theorem under_map_ne (h : j ≠ i) (ns : List Nat) : under (ns.map (i, ·)) j = [] := by
  induction ns with
  | nil => rfl
  | cons n ns ih => simp [under, h.symm]

theorem under_release_self (l : Ledger) (i : Nat) : under (l.release i).held i = [] := by
  simp [under, release]

theorem under_release_ne (l : Ledger) (h : j ≠ i) :
    under (l.release i).held j = under l.held j := by
  simp only [under, release, List.filter_filter]
  congr 1
  refine List.filter_congr fun p _ => ?_
  by_cases hp : p.1 = j
  · simp [hp, h]
  · simp [hp]

/-- What a thread holds changes only when it steps itself. -/
theorem under_held_record (h : j ≠ i) (t : Handling) :
    under (l.record i t).held j = under l.held j := by
  cases t with
  | takes m => simpa [record] using under_map_ne h [l.items.length]
  | returns | keeps | files => exact under_release_ne l h
  | _ => rfl

theorem under_returned_record (h : j ≠ i) (t : Handling) :
    under (l.record i t).returned j = under l.returned j := by
  cases t with
  | finds place => simp [record, under_map_ne h]
  | returns => simp [record, under_map_ne h]
  | _ => rfl

theorem items_record (l : Ledger) (i : Nat) (t : Handling) :
    l.items <+: (l.record i t).items := by
  cases t with
  | takes m | refuses m => exact List.prefix_append ..
  | _ => exact List.prefix_refl _

theorem getElem?_record {n : Nat} {item : Item} (i : Nat) (t : Handling)
    (known : l.items[n]? = some item) : (l.record i t).items[n]? = some item := by
  obtain ⟨more, grown⟩ := l.items_record i t
  rw [← grown, List.getElem?_append_left (List.getElem?_eq_some_iff.mp known).1]
  exact known

def IsReply (l : Ledger) (n : Nat) (m : Envelope) : Prop :=
  ∃ reader, l.items[n]? = some ⟨reader, m⟩ ∧ (reader.isSome → m.intent = queryReplyIntent)

def IsOther (l : Ledger) (n : Nat) (m : Envelope) : Prop :=
  ∃ reader, l.items[n]? = some ⟨some reader, m⟩ ∧ m.intent ≠ queryReplyIntent

def IsAnswer (l : Ledger) (reference : Option Int32) (n : Nat) (r : Except PeerError Envelope) :
    Prop :=
  ∃ m, l.IsReply n m ∧ r = finishReply m ∧ reference = some m.messageRef

theorem IsReply.record {n : Nat} {m : Envelope} (h : l.IsReply n m) (i : Nat) (t : Handling) :
    (l.record i t).IsReply n m := by
  obtain ⟨reader, known, reply⟩ := h
  exact ⟨reader, getElem?_record i t known, reply⟩

theorem IsOther.record {n : Nat} {m : Envelope} (h : l.IsOther n m) (i : Nat) (t : Handling) :
    (l.record i t).IsOther n m := by
  obtain ⟨reader, known, other⟩ := h
  exact ⟨reader, getElem?_record i t known, other⟩

theorem IsAnswer.record {reference : Option Int32} {n : Nat} {r : Except PeerError Envelope}
    (h : l.IsAnswer reference n r) (i : Nat) (t : Handling) :
    (l.record i t).IsAnswer reference n r := by
  obtain ⟨m, reply, rest⟩ := h
  exact ⟨m, reply.record i t, rest⟩

theorem mem_read {n : Nat} {reader : Nat} {m : Envelope}
    (h : l.items[n]? = some ⟨some reader, m⟩) : m ∈ l.read :=
  List.mem_map.mpr ⟨_, List.mem_filter.mpr ⟨List.mem_of_getElem? h, rfl⟩, rfl⟩

theorem read_record (l : Ledger) (i : Nat) (t : Handling) :
    (l.record i t).read = l.read ++ t.read := by
  cases t with
  | takes m | refuses m => simp [record, read, Handling.read]
  | _ => simp [record, read, Handling.read, release]

private theorem count_under (ps : List (Nat × Nat)) (i n : Nat) :
    (ps.map Prod.snd).count n =
      (under ps i).count n + ((ps.filter (·.1 ≠ i)).map Prod.snd).count n := by
  have split := ((List.filter_append_perm (fun p => decide (p.1 = i)) ps).map Prod.snd).count_eq n
  rw [← split, List.map_append, List.count_append]
  simp only [under, decide_not]

private theorem count_eraseIdx (ns : List Nat) (place n : Nat) :
    ns.count n = (ns[place]?.toList).count n + (ns.eraseIdx place).count n := by
  induction ns generalizing place with
  | nil => simp
  | cons a ns ih =>
    cases place with
    | zero => simp [List.count_cons, Nat.add_comm]
    | succ place =>
      have := ih place
      simp only [List.getElem?_cons_succ, List.eraseIdx_cons_succ, List.count_cons]
      omega

/-- No step loses a number, or puts one in two places. -/
theorem Accounted.record (h : l.Accounted) (i : Nat) (t : Handling) : (l.record i t).Accounted := by
  simp only [Accounted, List.perm_iff_count, numbers, List.count_append] at h ⊢
  intro n
  have before := h n
  have hand := count_under l.held i n
  cases t with
  | nothing => exact before
  | takes m | refuses m =>
    simp only [Ledger.record, List.map_append, List.count_append, List.length_append,
      List.length_singleton, List.range_succ, List.map_cons, List.map_nil]
    omega
  | finds place =>
    have found := count_eraseIdx l.pending place n
    simp only [Ledger.record, List.map_append, List.count_append, List.map_map,
      Function.comp_def, List.map_id']
    omega
  | returns =>
    simp only [Ledger.record, release, List.map_append, List.count_append, List.map_map,
      Function.comp_def, List.map_id']
    omega
  | keeps | files =>
    simp only [Ledger.record, release, List.count_append]
    omega

end Ledger

namespace Waiters

def handling (s : Waiters) (i : Nat) : Handling :=
  (s.threads[i]?).elim .nothing (·.handling s.context)

theorem handling_of_none {s : Waiters} {i : Nat} (h : s.threads[i]? = none) :
    s.handling i = .nothing := by
  rw [handling, h]
  rfl

theorem handling_of_some {s : Waiters} {i : Nat} {w : Waiter} (h : s.threads[i]? = some w) :
    s.handling i = w.handling s.context := by
  rw [handling, h]
  rfl

def inHand (s : Waiters) (i : Nat) : Option Envelope := s.threads[i]?.bind (·.phase.inHand)

def answer? (s : Waiters) (i : Nat) : Option (Except PeerError Envelope) :=
  s.threads[i]?.bind (·.phase.answer?)

def reference? (s : Waiters) (i : Nat) : Option Int32 := s.threads[i]?.map (·.messageRef)

end Waiters

/-- Waiting threads, and the books on the envelopes that they move. -/
structure Custody where
  waiters : Waiters
  ledger : Ledger
  /-- What was handed out of the inbound queue. -/
  handed : List (ConnectionId × Envelope) := []
  /-- All that was ever to be read on the router connection. -/
  stream : Bytes

inductive CustodyEvent
  | happens (event : WaitersEvent)
  | takesInbound

theorem Envelope.Acceptable.fits {m : Envelope} {limits : Limits} (h : m.Acceptable limits) :
    m.header.Fits limits := ⟨h.classTotal ▸ h.classData_le, h.messageTotal ▸ h.payload_le⟩

/-- Bytes that are whole envelopes of one kind. -/
def IsMail (ok : Envelope → Prop) (bytes : Bytes) : Prop :=
  ∃ ms : List Envelope, (∀ m ∈ ms, ok m) ∧ bytes = ms.flatMap Envelope.wire

theorem isMail_wire {ok : Envelope → Prop} {m : Envelope} (h : ok m) : IsMail ok m.wire :=
  ⟨[m], by simpa using h, by simp⟩

inductive Numbered {α : Type} (is : Nat → α → Prop) : List Nat → Option α → Prop
  | nothing : Numbered is [] none
  | one {n : Nat} {a : α} (h : is n a) : Numbered is [n] (some a)

theorem Numbered.mono {α : Type} {is is' : Nat → α → Prop} {ns : List Nat} {o : Option α}
    (h : Numbered is ns o) (weaker : ∀ n a, is n a → is' n a) : Numbered is' ns o := by
  cases h with
  | nothing => exact .nothing
  | one h => exact .one (weaker _ _ h)

theorem Numbered.eq_nil {α : Type} {is : Nat → α → Prop} {ns : List Nat}
    (h : Numbered is ns none) : ns = [] := by
  cases h
  rfl

theorem Numbered.eq_one {α : Type} {is : Nat → α → Prop} {ns : List Nat} {a : α}
    (h : Numbered is ns (some a)) : ∃ n, ns = [n] ∧ is n a := by
  cases h with
  | one h => exact ⟨_, rfl, h⟩

namespace Custody

def unread (x : ModuleContext) (router : ConnectionId) : Bytes :=
  (x.connection? router).elim [] (·.incoming.unread)

def opening (router : ConnectionId) (s : Waiters) : Custody where
  waiters := s
  ledger := .opening s.context.pendingReplies
  stream := unread s.context router

def happen (router : ConnectionId) (c : Custody) : CustodyEvent → Custody
  | .happens (.steps i) =>
    { c with
      waiters := c.waiters.happen router (.steps i)
      ledger := c.ledger.record i (c.waiters.handling i) }
  | .happens (.arrives bytes) =>
    { c with
      waiters := c.waiters.happen router (.arrives bytes)
      stream := c.stream ++ c.waiters.context.arriving router (.arrives bytes) }
  | .happens .hangsUp => { c with waiters := c.waiters.happen router .hangsUp }
  | .takesInbound =>
    let (first, context) := c.waiters.context.takeInbound
    { c with waiters := { c.waiters with context }, handed := c.handed ++ first.toList }

def after (router : ConnectionId) (c : Custody) (events : List CustodyEvent) : Custody :=
  events.foldl (happen router) c

def arrivals (c : Custody) : List Envelope :=
  (c.handed ++ c.waiters.context.inbound).map Prod.snd

/-- The books are right. What is pending or returned, if it was read at all, answers a query; what is
filed does not. -/
structure Sound (c : Custody) (earlier : List Envelope) : Prop where
  accounted : c.ledger.Accounted
  held : ∀ i, Numbered (fun n m => c.ledger.items[n]? = some ⟨some i, m⟩)
    (Ledger.under c.ledger.held i) (c.waiters.inHand i)
  pending : List.Forall₂ c.ledger.IsReply c.ledger.pending c.waiters.context.pendingReplies
  filed : ∃ ms, c.arrivals = earlier ++ ms ∧ List.Forall₂ c.ledger.IsOther c.ledger.filed ms
  refused : ∀ n ∈ c.ledger.refused, ∃ i m, c.ledger.items[n]? = some ⟨some i, m⟩ ∧
    m.classifier.alignment ≠ .packed
  returned : ∀ i, Numbered (c.ledger.IsAnswer (c.waiters.reference? i))
    (Ledger.under c.ledger.returned i) (c.waiters.answer? i)

variable {c : Custody} {earlier : List Envelope}

theorem sound_opening {router : ConnectionId} {s : Waiters}
    (looking : ∀ (i : Nat) (w : Waiter), s.threads[i]? = some w → w.phase = .look) :
    (opening router s).Sound (s.context.inbound.map Prod.snd) := by
  have idle : ∀ i, s.inHand i = none ∧ s.answer? i = none := by
    intro i
    unfold Waiters.inHand Waiters.answer?
    cases hw : s.threads[i]? with
    | none => exact ⟨rfl, rfl⟩
    | some w => simp [looking i w hw, WaitPhase.inHand, WaitPhase.answer?]
  refine ⟨?_, fun i => ?_, ?_, ⟨[], ?_, .nil⟩, fun n hn => absurd hn List.not_mem_nil, fun i => ?_⟩
  · simp [Ledger.Accounted, Ledger.numbers, opening, Ledger.opening]
  · rw [show (opening router s).waiters.inHand i = none from (idle i).1]
    exact .nothing
  · refine List.forall₂_iff_get.mpr ⟨by simp [opening, Ledger.opening], fun n hn hm => ?_⟩
    simp only [opening, Ledger.opening, List.get_eq_getElem, List.getElem_range] at hm ⊢
    exact ⟨none, by simp [hm], fun read => absurd read Bool.false_ne_true⟩
  · simp [arrivals, opening]
  · rw [show (opening router s).waiters.answer? i = none from (idle i).2]
    exact .nothing

section Step

variable {i : Nat} {w : Waiter}

private theorem inHand_step_self (hw : c.waiters.threads[i]? = some w) :
    (c.waiters.step i).inHand i = (w.step c.waiters.context).1.phase.inHand := by
  rw [Waiters.inHand, Waiters.threads_step_self hw, Option.bind_some]

private theorem answer?_step_self (hw : c.waiters.threads[i]? = some w) :
    (c.waiters.step i).answer? i = (w.step c.waiters.context).1.phase.answer? := by
  rw [Waiters.answer?, Waiters.threads_step_self hw, Option.bind_some]

private theorem reference?_step (hw : c.waiters.threads[i]? = some w) (j : Nat) :
    (c.waiters.step i).reference? j = c.waiters.reference? j := by
  unfold Waiters.reference?
  by_cases hj : j = i
  · rw [hj, Waiters.threads_step_self hw, hw, Option.map_some, Option.map_some,
      w.step_messageRef]
  · rw [Waiters.threads_step_ne hj]

private theorem Sound.held_step (h : c.Sound earlier) (hw : c.waiters.threads[i]? = some w)
    (j : Nat) :
    Numbered (fun n m =>
        (c.ledger.record i (w.handling c.waiters.context)).items[n]? = some ⟨some j, m⟩)
      (Ledger.under (c.ledger.record i (w.handling c.waiters.context)).held j)
      ((c.waiters.step i).inHand j) := by
  have before := h.held j
  by_cases hj : j = i
  · subst hj
    have hand : c.waiters.inHand j = w.phase.inHand := by rw [Waiters.inHand, hw, Option.bind_some]
    rw [inHand_step_self hw]
    rw [hand] at before
    have carries := w.step_carries c.waiters.context
    generalize w.handling c.waiters.context = t at carries ⊢
    cases carries with
    | nothing hand => rwa [hand]
    | takes hand _ hand' =>
      rw [hand] at before
      rw [hand']
      have empty : Ledger.under c.ledger.held j = [] := before.eq_nil
      simp only [Ledger.record, Ledger.under_append, empty]
      simpa [Ledger.under] using Numbered.one (by simp)
    | refuses _ hand =>
      rw [hand]
      exact before.mono fun n m => Ledger.getElem?_record j (.refuses _)
    | finds hand _ _ _ done =>
      rw [hand] at before
      rwa [done]
    | returns _ _ _ done =>
      rw [done]
      show Numbered _ (Ledger.under (c.ledger.release j).held j) none
      rw [Ledger.under_release_self]
      exact .nothing
    | keeps _ _ _ hand' | files _ _ _ hand' =>
      rw [hand']
      show Numbered _ (Ledger.under (c.ledger.release j).held j) none
      rw [Ledger.under_release_self]
      exact .nothing
  · rw [Ledger.under_held_record hj, Waiters.inHand, Waiters.threads_step_ne hj]
    exact before.mono fun n m => Ledger.getElem?_record i _

theorem Sound.held_one (h : c.Sound earlier) (hw : c.waiters.threads[i]? = some w)
    {m : Envelope} (hand : w.phase.inHand = some m) :
    ∃ n, Ledger.under c.ledger.held i = [n] ∧ c.ledger.items[n]? = some ⟨some i, m⟩ := by
  have numbered := h.held i
  rw [Waiters.inHand, hw, Option.bind_some, hand] at numbered
  exact numbered.eq_one

private theorem pending_at (h : c.Sound earlier) {place : Nat} {m : Envelope}
    (found : c.waiters.context.pendingReplies[place]? = some m) :
    ∃ n, c.ledger.pending[place]? = some n ∧ c.ledger.IsReply n m := by
  obtain ⟨length, each⟩ := List.forall₂_iff_get.mp h.pending
  obtain ⟨lt, rfl⟩ := List.getElem?_eq_some_iff.mp found
  have lt' : place < c.ledger.pending.length := length ▸ lt
  exact ⟨_, List.getElem?_eq_getElem lt', each place lt' lt⟩

private theorem Sound.pending_step (h : c.Sound earlier) (hw : c.waiters.threads[i]? = some w) :
    List.Forall₂ (c.ledger.record i (w.handling c.waiters.context)).IsReply
      (c.ledger.record i (w.handling c.waiters.context)).pending
      (w.step c.waiters.context).2.pendingReplies := by
  have carries := w.step_carries c.waiters.context
  generalize w.handling c.waiters.context = t at carries ⊢
  have before := h.pending.imp fun n m reply => reply.record i t
  cases carries with
  | nothing _ _ pending | takes _ _ _ _ pending | refuses _ _ _ pending
  | returns _ _ _ _ pending | files _ _ _ _ _ pending =>
    rw [pending]
    exact before
  | @finds place _ _ _ _ _ _ pending =>
    rw [pending, List.eraseIdx_eq_take_drop_succ]
    simp only [Ledger.record, List.eraseIdx_eq_take_drop_succ]
    exact List.rel_append (List.forall₂_take place before) (List.forall₂_drop (place + 1) before)
  | keeps hand _ reply _ _ pending =>
    obtain ⟨n, single, known⟩ := h.held_one hw hand
    rw [pending]
    simp only [Ledger.record, single]
    exact List.rel_append before (.cons ⟨some i, known, fun _ => reply⟩ .nil)

private theorem Sound.filed_step (h : c.Sound earlier) (hw : c.waiters.threads[i]? = some w) :
    ∃ ms, (c.handed ++ (w.step c.waiters.context).2.inbound).map Prod.snd = earlier ++ ms ∧
      List.Forall₂ (c.ledger.record i (w.handling c.waiters.context)).IsOther
        (c.ledger.record i (w.handling c.waiters.context)).filed ms := by
  obtain ⟨ms, arrived, filed⟩ := h.filed
  have carries := w.step_carries c.waiters.context
  generalize w.handling c.waiters.context = t at carries ⊢
  have before := filed.imp fun n m other => other.record i t
  cases carries with
  | nothing _ _ _ inbound | takes _ _ _ _ _ inbound | refuses _ _ _ _ inbound
  | finds _ _ _ _ _ _ inbound | returns _ _ _ _ _ inbound | keeps _ _ _ _ _ _ inbound =>
    rw [inbound]
    exact ⟨ms, arrived, before⟩
  | @files id m hand _ other _ _ _ inbound =>
    obtain ⟨n, single, known⟩ := h.held_one hw hand
    refine ⟨ms ++ [m], ?_, ?_⟩
    · rw [inbound, ← List.append_assoc, List.map_append, ← List.append_assoc]
      exact congrArg (· ++ [m]) arrived
    · simp only [Ledger.record, single]
      exact List.rel_append before (.cons ⟨i, known, other⟩ .nil)

private theorem Sound.refused_step (h : c.Sound earlier) :
    ∀ n ∈ (c.ledger.record i (w.handling c.waiters.context)).refused, ∃ j m,
      (c.ledger.record i (w.handling c.waiters.context)).items[n]? = some ⟨some j, m⟩ ∧
        m.classifier.alignment ≠ .packed := by
  have carries := w.step_carries c.waiters.context
  generalize w.handling c.waiters.context = t at carries ⊢
  have before : ∀ n ∈ c.ledger.refused, ∃ j m,
      (c.ledger.record i t).items[n]? = some ⟨some j, m⟩ ∧ m.classifier.alignment ≠ .packed := by
    intro n hn
    obtain ⟨j, m, known, padded⟩ := h.refused n hn
    exact ⟨j, m, Ledger.getElem?_record i t known, padded⟩
  cases carries with
  | @refuses m padded =>
    intro n hn
    rcases List.mem_append.mp hn with hn | hn
    · exact before n hn
    · obtain rfl := List.mem_singleton.mp hn
      exact ⟨i, m, by simp [Ledger.record], padded⟩
  | _ => exact before

private theorem Sound.returned_step (h : c.Sound earlier) (hw : c.waiters.threads[i]? = some w)
    (j : Nat) :
    Numbered ((c.ledger.record i (w.handling c.waiters.context)).IsAnswer
        ((c.waiters.step i).reference? j))
      (Ledger.under (c.ledger.record i (w.handling c.waiters.context)).returned j)
      ((c.waiters.step i).answer? j) := by
  have before := h.returned j
  rw [reference?_step hw]
  by_cases hj : j = i
  · subst hj
    have mine : c.waiters.reference? j = some w.messageRef := by
      rw [Waiters.reference?, hw, Option.map_some]
    have now : c.waiters.answer? j = w.phase.answer? := by
      rw [Waiters.answer?, hw, Option.bind_some]
    rw [answer?_step_self hw, mine]
    rw [now, mine] at before
    have carries := w.step_carries c.waiters.context
    generalize w.handling c.waiters.context = t at carries ⊢
    have later := before.mono fun n r answer => answer.record j t
    cases carries with
    | nothing _ answer | refuses _ _ answer =>
      rw [answer]
      exact later
    | takes _ answer _ answer' | keeps _ answer _ _ answer' | files _ answer _ _ answer' =>
      rw [answer']
      rw [answer] at later
      exact later
    | @finds place m _ answer found reference done =>
      rw [answer] at before
      obtain ⟨n, place_n, reply⟩ := pending_at h found
      have now : Ledger.under (c.ledger.record j (.finds place)).returned j = [n] := by
        simp only [Ledger.record, Ledger.under_append, before.eq_nil, place_n, Option.toList_some,
          Ledger.under_map_self, List.nil_append]
      rw [done, WaitPhase.answer?_finishReply, now]
      exact .one ⟨m, reply.record j _, rfl, reference ▸ rfl⟩
    | @returns m hand answer reply done =>
      rw [answer] at before
      obtain ⟨n, single, known⟩ := h.held_one hw hand
      have now : Ledger.under (c.ledger.record j .returns).returned j = [n] := by
        simp only [Ledger.record, Ledger.under_append, before.eq_nil, single,
          Ledger.under_map_self, List.nil_append]
      obtain ⟨intent, reference⟩ := isReplyTo_iff.mp reply
      rw [done, WaitPhase.answer?_finishReply, now]
      exact .one ⟨m, ⟨some j, known, fun _ => intent⟩, rfl, reference ▸ rfl⟩
  · rw [Ledger.under_returned_record hj, Waiters.answer?, Waiters.threads_step_ne hj]
    exact before.mono fun n r answer => answer.record i _

theorem Sound.steps (h : c.Sound earlier) (router : ConnectionId) (i : Nat) :
    (c.happen router (.happens (.steps i))).Sound earlier := by
  cases hw : c.waiters.threads[i]? with
  | none =>
    have same : c.happen router (.happens (.steps i)) = c := by
      simp only [happen, Waiters.handling_of_none hw, Waiters.happen, Waiters.step_of_none hw]
      rfl
    rwa [same]
  | some w =>
    have context : (c.waiters.step i).context = (w.step c.waiters.context).2 := by
      rw [Waiters.step_of_some hw]
    simp only [happen, Waiters.handling_of_some hw, Waiters.happen]
    refine ⟨h.accounted.record i _, h.held_step hw, ?_, ?_, h.refused_step, h.returned_step hw⟩
    · rw [context]
      exact h.pending_step hw
    · simp only [arrivals, context]
      exact h.filed_step hw

end Step

/-- What the other end does, or a caller who takes from the inbound queue, is not in the books. -/
private theorem Sound.of_context (h : c.Sound earlier) {c' : Custody}
    (ledger : c'.ledger = c.ledger) (threads : c'.waiters.threads = c.waiters.threads)
    (pending : c'.waiters.context.pendingReplies = c.waiters.context.pendingReplies)
    (arrived : c'.arrivals = c.arrivals) : c'.Sound earlier := by
  have same : c'.waiters.inHand = c.waiters.inHand ∧ c'.waiters.answer? = c.waiters.answer? ∧
      c'.waiters.reference? = c.waiters.reference? := by
    refine ⟨funext fun i => ?_, funext fun i => ?_, funext fun i => ?_⟩
    · rw [Waiters.inHand, threads, Waiters.inHand]
    · rw [Waiters.answer?, threads, Waiters.answer?]
    · rw [Waiters.reference?, threads, Waiters.reference?]
  obtain ⟨hand, answer, reference⟩ := same
  refine ⟨?_, ?_, ?_, ?_, ?_, ?_⟩
  · rw [ledger]; exact h.accounted
  · rw [ledger, hand]; exact h.held
  · rw [ledger, pending]; exact h.pending
  · rw [ledger, arrived]; exact h.filed
  · rw [ledger]; exact h.refused
  · rw [ledger, answer, reference]; exact h.returned

private theorem apply_queues (x : ModuleContext) (router : ConnectionId) (event : RouterEvent)
    (other : event = .hangsUp ∨ ∃ bytes, event = .arrives bytes) :
    (x.apply router event).2.pendingReplies = x.pendingReplies ∧
      (x.apply router event).2.inbound = x.inbound := by
  rcases other with rfl | ⟨bytes, rfl⟩
  · simp only [ModuleContext.apply]
    cases x.connection? router <;> exact ⟨rfl, rfl⟩
  · simp only [ModuleContext.apply]
    cases x.connection? router <;> exact ⟨rfl, rfl⟩

theorem Sound.happen (h : c.Sound earlier) (router : ConnectionId) (event : CustodyEvent) :
    (c.happen router event).Sound earlier := by
  match event with
  | .happens (.steps i) => exact h.steps router i
  | .happens (.arrives bytes) =>
    obtain ⟨pending, inbound⟩ :=
      apply_queues c.waiters.context router (.arrives bytes) (.inr ⟨bytes, rfl⟩)
    exact h.of_context rfl rfl pending (congrArg (fun ms => (c.handed ++ ms).map Prod.snd) inbound)
  | .happens .hangsUp =>
    obtain ⟨pending, inbound⟩ := apply_queues c.waiters.context router .hangsUp (.inl rfl)
    exact h.of_context rfl rfl pending (congrArg (fun ms => (c.handed ++ ms).map Prod.snd) inbound)
  | .takesInbound =>
    refine h.of_context rfl rfl ?_ ?_
    · simp only [Custody.happen, ModuleContext.takeInbound]
      split <;> rfl
    · simp only [Custody.happen, arrivals, ModuleContext.takeInbound]
      cases hi : c.waiters.context.inbound <;> simp [hi]

theorem Sound.after (h : c.Sound earlier) (router : ConnectionId) (events : List CustodyEvent) :
    (c.after router events).Sound earlier := by
  induction events generalizing c with
  | nil => exact h
  | cons event events ih => exact ih (h.happen router event)

/-- All that was ever to be read are envelopes of one kind: those in the books, and those that stand
on the connection. -/
structure Fed (c : Custody) (router : ConnectionId) (limits : Limits) (ok : Envelope → Prop) :
    Prop where
  locked : c.waiters.Locked router
  limits : c.waiters.context.settings.limits = limits
  standing : ∃ d rest, c.waiters.context.connection? router = some d ∧
    (∀ turn ∈ d.incoming.turns, turn.goesOn) ∧ (∀ m ∈ c.ledger.read ++ rest, ok m) ∧
    c.stream = (c.ledger.read ++ rest).flatMap Envelope.wire ∧
    d.incoming.unread = rest.flatMap Envelope.wire

variable {router : ConnectionId} {limits : Limits} {ok : Envelope → Prop}

theorem fed_opening {s : Waiters} (fresh : s.Fresh router) {d : Connection}
    (hd : s.context.connection? router = some d) (hs : ∀ turn ∈ d.incoming.turns, turn.goesOn)
    (mail : IsMail ok d.incoming.unread) :
    (opening router s).Fed router s.context.settings.limits ok := by
  obtain ⟨ms, kind, hu⟩ := mail
  have none : (opening router s).ledger.read = [] := by
    simp [opening, Ledger.opening, Ledger.read]
  refine ⟨fresh.locked, rfl, d, ms, hd, hs, ?_, ?_, hu⟩
  · rw [none]
    exact kind
  · rw [none]
    simp [opening, unread, hd, hu]

private theorem Fed.steps (h : c.Fed router limits ok)
    (framed : ∀ m, ok m → m.Sized ∧ m.header.Fits limits) (i : Nat) :
    (c.happen router (.happens (.steps i))).Fed router limits ok := by
  have locked := h.locked.step i
  obtain ⟨d, rest, hd, hs, kind, stream, hu⟩ := h.standing
  cases hw : c.waiters.threads[i]? with
  | none =>
    simp only [happen, Waiters.handling_of_none hw, Waiters.happen]
    refine ⟨locked, ?_, ?_⟩
    · rw [Waiters.step_of_none hw]
      exact h.limits
    · rw [Waiters.step_of_none hw]
      exact h.standing
  | some w =>
    obtain ⟨e, left, he, hs', split, hu'⟩ := w.step_reads (h.locked.known i w hw) hd hs
      (fun m hm => h.limits ▸ framed m (kind m (List.mem_append_right _ hm))) hu
    have context : (c.waiters.step i).context = (w.step c.waiters.context).2 := by
      rw [Waiters.step_of_some hw]
    simp only [happen, Waiters.handling_of_some hw, Waiters.happen]
    refine ⟨locked, ?_, e, left, ?_, hs', ?_, ?_, hu'⟩
    · rw [context, w.settings_step]
      exact h.limits
    · rw [context]
      exact he
    · rw [Ledger.read_record, List.append_assoc, ← split]
      exact kind
    · rw [Ledger.read_record, List.append_assoc, ← split]
      exact stream

private theorem connection_apply {x : ModuleContext} {d : Connection}
    (hd : x.connection? router = some d) (event : RouterEvent)
    (far : event = .hangsUp ∨ ∃ bytes, event = .arrives bytes) :
    (x.apply router event).2.settings = x.settings ∧
      ∃ e, (x.apply router event).2.connection? router = some e ∧
        e.incoming.turns = d.incoming.turns ∧
        e.incoming.unread = d.incoming.unread ++ x.arriving router event := by
  rcases far with rfl | ⟨bytes, rfl⟩
  · simp only [ModuleContext.apply, ModuleContext.arriving, hd, List.append_nil]
    exact ⟨rfl, _, ModuleContext.connection?_setConnection_self hd _, rfl, rfl⟩
  · simp only [ModuleContext.apply, ModuleContext.arriving, hd, Option.any_some]
    refine ⟨rfl, _, ModuleContext.connection?_setConnection_self hd _, ?_⟩
    unfold Connection.peerWrites
    split
    · exact ⟨rfl, by simp⟩
    · exact ⟨rfl, by simp⟩

private theorem isMail_arriving {bytes : Bytes} (mail : IsMail ok bytes) (x : ModuleContext) :
    IsMail ok (x.arriving router (.arrives bytes)) := by
  simp only [ModuleContext.arriving]
  split
  · exact mail
  · exact ⟨[], fun m hm => absurd hm List.not_mem_nil, rfl⟩

/-- The other end adds whole envelopes, or nothing. -/
private theorem Fed.extends (h : c.Fed router limits ok) {c' : Custody} {more : Bytes}
    (mail : IsMail ok more) (locked : c'.waiters.Locked router) (ledger : c'.ledger = c.ledger)
    (stream : c'.stream = c.stream ++ more)
    (settings : c'.waiters.context.settings = c.waiters.context.settings)
    (connection : ∀ d, c.waiters.context.connection? router = some d →
      ∃ e, c'.waiters.context.connection? router = some e ∧
        e.incoming.turns = d.incoming.turns ∧
        e.incoming.unread = d.incoming.unread ++ more) : c'.Fed router limits ok := by
  obtain ⟨d, rest, hd, hs, kind, whole, hu⟩ := h.standing
  obtain ⟨ms, new, rfl⟩ := mail
  obtain ⟨e, he, turns, unread⟩ := connection d hd
  refine ⟨locked, settings ▸ h.limits, e, rest ++ ms, he, turns ▸ hs, ?_, ?_, ?_⟩
  · rw [ledger, ← List.append_assoc]
    exact fun m hm => (List.mem_append.mp hm).elim (kind m) (new m)
  · rw [ledger, stream, whole, ← List.flatMap_append, List.append_assoc]
  · rw [unread, hu, List.flatMap_append]

private theorem Fed.happen (h : c.Fed router limits ok)
    (framed : ∀ m, ok m → m.Sized ∧ m.header.Fits limits) {event : CustodyEvent}
    (mail : ∀ bytes, event = .happens (.arrives bytes) → IsMail ok bytes) :
    (c.happen router event).Fed router limits ok := by
  obtain ⟨d, -, hd, -⟩ := h.standing
  match event with
  | .happens (.steps i) => exact h.steps framed i
  | .happens (.arrives bytes) =>
    exact h.extends (isMail_arriving (mail bytes rfl) _) (h.locked.happen (.arrives bytes)) rfl rfl
      (connection_apply hd (.arrives bytes) (.inr ⟨bytes, rfl⟩)).1
      fun d hd => (connection_apply hd (.arrives bytes) (.inr ⟨bytes, rfl⟩)).2
  | .happens .hangsUp =>
    exact h.extends ⟨[], nofun, rfl⟩ (h.locked.happen .hangsUp) rfl (List.append_nil _).symm
      (connection_apply hd .hangsUp (.inl rfl)).1
      fun d hd => (connection_apply hd .hangsUp (.inl rfl)).2
  | .takesInbound =>
    have same : c.waiters.context.takeInbound.2 =
        { c.waiters.context with inbound := c.waiters.context.takeInbound.2.inbound } := by
      simp only [ModuleContext.takeInbound]
      split <;> rfl
    simp only [Custody.happen]
    rw [same]
    exact ⟨⟨h.locked.attached, h.locked.known, h.locked.held, h.locked.alone⟩, h.limits,
      h.standing⟩

/-- While whole envelopes within the limits arrive, those that came off the connection are the first
ones, in order. -/
theorem fed_after {s : Waiters} (fresh : s.Fresh router) {events : List CustodyEvent}
    {d : Connection} (hd : s.context.connection? router = some d)
    (hs : ∀ turn ∈ d.incoming.turns, turn.goesOn) (first : IsMail ok d.incoming.unread)
    (framed : ∀ m, ok m → m.Sized ∧ m.header.Fits s.context.settings.limits)
    (mail : ∀ bytes, .happens (.arrives bytes) ∈ events → IsMail ok bytes) :
    ((opening router s).after router events).Fed router s.context.settings.limits ok := by
  have start := fed_opening fresh hd hs first
  generalize opening router s = c at start ⊢
  induction events generalizing c with
  | nil => exact start
  | cons event events ih =>
    refine ih (fun bytes later => mail bytes (List.mem_cons_of_mem _ later)) _ ?_
    exact start.happen framed fun bytes here => mail bytes (here ▸ List.mem_cons_self ..)

/-- However threads that wait for replies to different queries step, every envelope that came off
the connection is in exactly one place, as the books have it. While packed envelopes within the
limits arrive whole, these are the envelopes that came off it, in order, and none was dropped. -/
theorem conserved_after {s : Waiters} (fresh : s.Fresh router) (events : List CustodyEvent) :
    let c := (opening router s).after router events
    c.Sound (s.context.inbound.map Prod.snd) ∧
      ∀ d, s.context.connection? router = some d → (∀ turn ∈ d.incoming.turns, turn.goesOn) →
        IsMail (·.Acceptable s.context.settings.limits) d.incoming.unread →
        (∀ bytes, .happens (.arrives bytes) ∈ events →
          IsMail (·.Acceptable s.context.settings.limits) bytes) →
        c.ledger.refused = [] ∧
          c.Fed router s.context.settings.limits (·.Acceptable s.context.settings.limits) := by
  intro c
  have sound : c.Sound (s.context.inbound.map Prod.snd) :=
    (sound_opening fresh.looking).after router events
  refine ⟨sound, fun d hd hs first mail => ?_⟩
  have fed := fed_after fresh hd hs first (fun m h => ⟨h.toSized, h.fits⟩) mail
  refine ⟨?_, fed⟩
  obtain ⟨_, _, -, -, acceptable, -⟩ := fed.standing
  refine List.eq_nil_iff_forall_not_mem.mpr fun n hn => ?_
  obtain ⟨i, m, known, padded⟩ := sound.refused n hn
  exact padded (acceptable m (List.mem_append_left _ (Ledger.mem_read known))).packed

/-- The first thread reads the reply to query 2, keeps it, and reads an envelope for nobody. The
second one finds its reply. -/
def crossedWaits : List CustodyEvent :=
  [(Envelope.plain queryReplyIntent 2 [5]).wire, (Envelope.plain 3 noRef [1]).wire].map
      (.happens <| .arrives ·) ++
    [0, 0, 0, 0, 0, 0, 0, 0, 0, 0, 1].map (.happens <| .steps ·)

theorem conserved_after_crossedWaits :
    let c := (opening 0 Waiters.twoWaiters).after 0 crossedWaits
    Waiters.twoWaiters.Fresh 0 ∧ c.ledger.held = [(0, 1)] ∧ c.ledger.returned = [(1, 0)] ∧ c.Sound [] ∧
      c.ledger.refused = [] ∧ c.Fed 0 {} (·.Acceptable {}) := by
  have mail : ∀ bytes, .happens (.arrives bytes) ∈ crossedWaits →
      IsMail (·.Acceptable {}) bytes := by
    intro bytes h
    have either : bytes = (Envelope.plain queryReplyIntent 2 [5]).wire ∨
        bytes = (Envelope.plain 3 noRef [1]).wire := by
      simpa [crossedWaits] using h
    rcases either with rfl | rfl
    · exact isMail_wire (by decide)
    · exact isMail_wire (by decide)
  obtain ⟨sound, fed⟩ := conserved_after Waiters.twoWaiters_fresh crossedWaits
  obtain ⟨none, standing⟩ := fed _ rfl nofun ⟨[], nofun, rfl⟩ mail
  exact ⟨Waiters.twoWaiters_fresh, by decide +kernel, by decide +kernel, sound, none, standing⟩

end Custody

end ModuleLink
