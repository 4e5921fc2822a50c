import Mathlib.Data.List.Pairwise
import Mathlib.Tactic.Common
import ModuleLink.Proofs.SenderSteps
import ModuleLink.Proofs.SwallowedMessages

/-! # Senders that overtake each other

Several threads send one message to its handlers, some of which have left. A thread serves all the
others and ends well, unless another thread tears down a connection that it has tested already, or
the router fails it. -/
namespace ModuleLink

instance : Std.Symm Handler.Apart := ⟨fun _ _ => Handler.Apart.symm⟩

structure Delivered where
  thread : Nat
  connection : ConnectionId
  envelope : Envelope
  deriving DecidableEq

/-- The envelopes that a thread wrote on a connection. -/
def sentBy (log : List Delivered) (i : Nat) (id : ConnectionId) : List Envelope :=
  (log.filter fun d => d.thread = i ∧ d.connection = id).map (·.envelope)

def sentOn (log : List Delivered) (id : ConnectionId) : List Envelope :=
  (log.filter (·.connection = id)).map (·.envelope)

namespace Senders

/-- The step of one thread tears down the connection that another one has tested. -/
def Overtakes (s : Senders) (j i : Nat) : Prop :=
  j ≠ i ∧ ∃ p p' id, s.threads[j]? = some p ∧ s.threads[i]? = some p' ∧
    p.tears s.context = some id ∧ p'.standsOn = some id

/-- The router fails the thread that steps. -/
def Unroutes (s : Senders) (j i : Nat) : Prop :=
  j = i ∧ ∃ p, s.threads[i]? = some p ∧ p.isUnrouted s.context = true

/-- A thread is overtaken on the way, or the router fails it. -/
def Thwarts (s : Senders) (i : Nat) : List Nat → Prop
  | [] => False
  | j :: js => (s.Overtakes j i ∨ s.Unroutes j i) ∨ (s.step j).Thwarts i js

def delivery (s : Senders) (j : Nat) : List Delivered :=
  match s.threads[j]? with
  | some p => (p.writes s.context).map fun w => ⟨j, w.1, w.2⟩
  | none => []

def deliveries (s : Senders) : List Nat → List Delivered
  | [] => []
  | j :: js => s.delivery j ++ (s.step j).deliveries js

/-- Threads that begin to send a message for handlers on different connections of the table. The other
end of each is gone or takes everything. -/
structure Fresh (s : Senders) (message : Message) (gone : ConnectionId → Bool) : Prop where
  known : s.context.message? message.name = some message
  direct : message.direct = true
  tracked : ∀ h ∈ message.handlers, ∃ id c, h.connection = some id ∧ id ∈ s.context.table ∧
    s.context.connection? id = some c ∧ c.isOpen = true ∧
      if gone id then c.outgoing.gone = true else c.outgoing.Willing
  apart : message.handlers.Pairwise Handler.Apart
  requests : ∀ p ∈ s.threads, ∃ q, p = .prepare q ∧ q.message = message.name ∧
    ∃ r m, s.context.EncodesAs message q r m

end Senders

namespace ModuleContext

/-- A thread has served every handler whose other end is alive but these. -/
structure Owes (x₀ : ModuleContext) (message : Message) (gone : ConnectionId → Bool)
    (q : SendRequest) (out : Outgoing) (sent : ConnectionId → List Envelope)
    (left : List Handler) : Prop where
  encoded : x₀.EncodesAs message q out.messageRef out.envelope
  named : ∀ h ∈ left, ∀ id, h.connection = some id → h ∈ message.handlers
  apart : left.Pairwise Handler.Apart
  served : ∀ h ∈ message.handlers, ∀ id, h.connection = some id → gone id = false →
    sent id = if h ∈ left then [] else [out.envelope.withIntent h.intent]

/-- Where a thread can stand, and what it has sent by then. -/
def Stands (x₀ : ModuleContext) (message : Message) (gone : ConnectionId → Bool) (q : SendRequest)
    (x : ModuleContext) (thwarted : Prop) (sent : ConnectionId → List Envelope) : SendPhase → Prop
  | .prepare q' => q' = q ∧ ¬ thwarted ∧ (∀ id, sent id = []) ∧ q.message = message.name ∧
      ∃ r m, x₀.EncodesAs message q r m
  | .route out => ¬ thwarted ∧ x₀.EncodesAs message q out.messageRef out.envelope ∧
      ∀ h ∈ message.handlers, ∀ id, h.connection = some id → gone id = true
  | .visit out hs => ¬ thwarted ∧ x₀.Owes message gone q out sent hs
  | .write out id intent hs => (thwarted ↔ x.isOpen id = false) ∧
      x₀.Owes message gone q out sent (⟨some id, intent⟩ :: hs)
  | .tearDown out id _ hs => gone id = true ∧ (thwarted ↔ id ∉ x.table) ∧
      x₀.Owes message gone q out sent hs
  | .done (.ok n) => ¬ thwarted ∧ ∃ out, out.messageRef = n ∧ x₀.Owes message gone q out sent []
  | .done (.error _) => thwarted

section Steps

variable {x₀ x y : ModuleContext} {message : Message} {gone : ConnectionId → Bool}
variable {q : SendRequest} {out : Outgoing} {sent sent' : ConnectionId → List Envelope}
variable {h : Handler} {hs : List Handler} {p p' : SendPhase} {thwarted : Prop}
variable {id : ConnectionId} {intent : Int32}

theorem Owes.skip (owes : x₀.Owes message gone q out sent (h :: hs))
    (dead : ∀ i, h ∈ message.handlers → h.connection = some i → gone i = true) :
    x₀.Owes message gone q out sent hs := by
  refine ⟨owes.encoded, fun h' hh' => owes.named h' (List.mem_cons_of_mem _ hh'),
    (List.pairwise_cons.mp owes.apart).2, fun h' hh' i hi alive => ?_⟩
  have other : h' ≠ h := by
    rintro rfl
    cases (dead i hh' hi).symm.trans alive
  rw [owes.served h' hh' i hi alive]
  simp only [List.mem_cons, other, false_or]

theorem Owes.serve (distinct : message.handlers.Pairwise Handler.Apart)
    (owes : x₀.Owes message gone q out sent (⟨some id, intent⟩ :: hs))
    (now : ∀ i, sent' i = sent i ++ if i = id then [out.envelope.withIntent intent] else []) :
    x₀.Owes message gone q out sent' hs := by
  obtain ⟨apart, rest⟩ := List.pairwise_cons.mp owes.apart
  have served : (⟨some id, intent⟩ : Handler) ∈ message.handlers :=
    owes.named _ (List.mem_cons_self ..) id rfl
  refine ⟨owes.encoded, fun h' hh' => owes.named h' (List.mem_cons_of_mem _ hh'), rest,
    fun h' hh' i hi alive => ?_⟩
  rw [now, owes.served h' hh' i hi alive]
  by_cases same : h' = ⟨some id, intent⟩
  · subst same
    have unserved : (⟨some id, intent⟩ : Handler) ∉ hs := fun again => apart _ again id rfl rfl
    obtain rfl : id = i := Option.some.inj hi
    simp [unserved]
  · have other : i ≠ id := by
      rintro rfl
      exact distinct.forall hh' served same i hi rfl
    simp [same, other]

theorem Owes.of_dead (encoded : x₀.EncodesAs message q out.messageRef out.envelope)
    (dead : ∀ h ∈ message.handlers, ∀ id, h.connection = some id → gone id = true) :
    x₀.Owes message gone q out sent [] := by
  refine ⟨encoded, nofun, .nil, fun h hh id hc alive => ?_⟩
  cases (dead h hh id hc).symm.trans alive

def sentAfter (x : ModuleContext) (p : SendPhase) (sent : ConnectionId → List Envelope)
    (i : ConnectionId) : List Envelope :=
  sent i ++ ((p.writes x).filter (·.1 = i)).map (·.2)

theorem sentAfter_of_silent (silent : p.writes x = []) : x.sentAfter p sent = sent := by
  funext i
  rw [sentAfter, silent]
  exact List.append_nil _

private theorem Stands.prepare {q' : SendRequest} (retains : x₀.Retains message gone x)
    (stands : x₀.Stands message gone q x thwarted sent (.prepare q')) :
    x₀.Stands message gone q ((SendPhase.prepare q').step x).2
      (thwarted ∨ (SendPhase.prepare q').isUnrouted x = true) sent
      ((SendPhase.prepare q').step x).1 := by
  obtain ⟨rfl, on, none, named, r, m, encodes⟩ := stands
  rw [SendPhase.step_prepare]
  cases hr : x.router with
  | none =>
    rw [prepareMessage_of_unrouted q' hr]
    exact .inr (decide_eq_true hr)
  | some router =>
    obtain ⟨left, n, prepared, keeps, encoded⟩ := retains.prepares hr named encodes
    have routed : (SendPhase.prepare q').isUnrouted x = false := by
      simp [SendPhase.isUnrouted, hr]
    rw [prepared, routed]
    dsimp only
    cases directly : left.deliversDirectly with
    | true =>
      refine ⟨fun e => e.elim on nofun, encoded, fun h hh => keeps.named h (List.mem_reverse.mp hh),
        ?_, fun h hh i hi alive => ?_⟩
      · exact List.pairwise_reverse.mpr (keeps.apart.imp Handler.Apart.symm)
      · rw [none, if_pos (List.mem_reverse.mpr (keeps.spared h hh i hi alive))]
    | false =>
      refine ⟨fun e => e.elim on nofun, encoded, fun h hh i hi => ?_⟩
      have emptied : left.handlers = [] := by
        simpa [Message.deliversDirectly, keeps.direct] using directly
      cases alive : gone i with
      | true => rfl
      | false =>
        have listed := keeps.spared h hh i hi alive
        rw [emptied] at listed
        cases listed

private theorem Stands.route (stands : x₀.Stands message gone q x thwarted sent (.route out)) :
    x₀.Stands message gone q ((SendPhase.route out).step x).2
      (thwarted ∨ (SendPhase.route out).isUnrouted x = true)
      sent' ((SendPhase.route out).step x).1 := by
  obtain ⟨on, encoded, dead⟩ := stands
  rw [SendPhase.step_route, SendPhase.isUnrouted]
  rcases (sendOn out.router (out.envelope.withIntent out.message.id)).run x with ⟨e | _, y⟩
  · exact .inr rfl
  · exact ⟨fun e => e.elim on nofun, out, rfl, .of_dead encoded dead⟩

private theorem Stands.visit (retains : x₀.Retains message gone x)
    (stands : x₀.Stands message gone q x thwarted sent (.visit out hs)) :
    x₀.Stands message gone q ((SendPhase.visit out hs).step x).2
      (thwarted ∨ (SendPhase.visit out hs).isUnrouted x = true)
      sent ((SendPhase.visit out hs).step x).1 := by
  obtain ⟨on, owes⟩ := stands
  have still : ¬ (thwarted ∨ false = true) := fun e => e.elim on nofun
  cases hs with
  | nil => exact ⟨still, out, rfl, owes⟩
  | cons h hs =>
    simp only [SendPhase.step]
    cases hl : x.liveConnection h with
    | none =>
      refine ⟨still, owes.skip fun i hh hi => ?_⟩
      cases alive : gone i with
      | true => rfl
      | false =>
        obtain ⟨c, hc, opened, -⟩ := retains.alive h hh i hi alive
        simp [liveConnection, hi, isOpen, hc, opened] at hl
    | some id =>
      obtain ⟨hc, opened⟩ := Option.filter_eq_some_iff.mp hl
      have same : h = ⟨some id, h.intent⟩ := by rw [← hc]
      refine ⟨⟨fun e => absurd e still, fun closed => ?_⟩, same ▸ owes⟩
      cases opened.symm.trans closed

private theorem Stands.write (retains : x₀.Retains message gone x)
    (distinct : message.handlers.Pairwise Handler.Apart)
    (stands : x₀.Stands message gone q x thwarted sent (.write out id intent hs)) :
    x₀.Stands message gone q ((SendPhase.write out id intent hs).step x).2
      (thwarted ∨ (SendPhase.write out id intent hs).isUnrouted x = true)
      (x.sentAfter (.write out id intent hs) sent) ((SendPhase.write out id intent hs).step x).1 := by
  obtain ⟨iff, owes⟩ := stands
  have listed : (⟨some id, intent⟩ : Handler) ∈ message.handlers :=
    owes.named _ (List.mem_cons_self ..) id rfl
  have sized : (out.envelope.withIntent intent).Sized :=
    ⟨owes.encoded.sized.classTotal, owes.encoded.sized.messageTotal⟩
  have on : ∀ {c : Connection}, x.connection? id = some c → c.isOpen = true →
      ¬ (thwarted ∨ false = true) := by
    intro c hc opened e
    have closed := iff.mp (e.resolve_right nofun)
    simp [isOpen, hc, opened] at closed
  rw [SendPhase.step_write]
  cases dead : gone id with
  | true =>
    obtain ⟨c, hc, gone, opened⟩ := retains.dead _ listed id rfl dead
    cases ho : c.isOpen with
    | true =>
      have refused := Connection.send_of_gone sized ho gone
      have silent : (SendPhase.write out id intent hs).writes x = [] := by
        simp [SendPhase.writes, taken, hc, refused, Except.isOk, Except.toBool]
      rw [run_sendOn_of_some hc, refused, sentAfter_of_silent silent]
      refine ⟨dead, ⟨fun e => absurd e (on hc ho), fun torn => absurd (opened.mp ho) torn⟩, ?_⟩
      exact owes.skip fun i _ hi => Option.some.inj hi ▸ dead
    | false =>
      rw [run_sendOn_of_some hc, Connection.send_of_closed _ ho]
      refine .inl (iff.mpr ?_)
      simp [isOpen, hc, ho]
  | false =>
    obtain ⟨c, hc, opened, willing⟩ := retains.alive _ listed id rfl dead
    have ok := Connection.send_of_sized sized opened willing
    rw [run_sendOn_of_some hc, ok]
    refine ⟨on hc opened, owes.serve distinct fun i => ?_⟩
    have wrote : (SendPhase.write out id intent hs).writes x =
        [(id, out.envelope.withIntent intent)] := by
      simp [SendPhase.writes, taken, hc, ok, Except.isOk, Except.toBool]
    rw [sentAfter, wrote]
    by_cases hi : i = id
    · simp [hi]
    · simp [hi, Ne.symm hi]

private theorem Stands.tearDown {cause : PeerError}
    (stands : x₀.Stands message gone q x thwarted sent (.tearDown out id cause hs)) :
    x₀.Stands message gone q ((SendPhase.tearDown out id cause hs).step x).2
      (thwarted ∨ (SendPhase.tearDown out id cause hs).isUnrouted x = true) sent
      ((SendPhase.tearDown out id cause hs).step x).1 := by
  obtain ⟨dead, iff, owes⟩ := stands
  simp only [SendPhase.step]
  by_cases listed : id ∈ x.table
  · rw [handleClosed_of_mem listed]
    exact ⟨fun e => e.elim (fun late => iff.mp late listed) Bool.false_ne_true, owes⟩
  · rw [handleClosed_of_not_mem listed]
    exact .inl (iff.mpr listed)

theorem Stands.step (retains : x₀.Retains message gone x)
    (distinct : message.handlers.Pairwise Handler.Apart)
    (stands : x₀.Stands message gone q x thwarted sent p) :
    x₀.Stands message gone q (p.step x).2 (thwarted ∨ p.isUnrouted x = true) (x.sentAfter p sent)
      (p.step x).1 := by
  cases p with
  | prepare q' =>
    rw [sentAfter_of_silent rfl]
    exact Stands.prepare retains stands
  | route out => exact Stands.route stands
  | visit out hs =>
    rw [sentAfter_of_silent rfl]
    exact Stands.visit retains stands
  | write out id intent hs => exact Stands.write retains distinct stands
  | tearDown out id cause hs =>
    rw [sentAfter_of_silent rfl]
    exact Stands.tearDown stands
  | done r =>
    rw [sentAfter_of_silent rfl]
    cases r with
    | error e => exact .inl stands
    | ok n => exact ⟨fun e => e.elim stands.1 nofun, stands.2⟩

/-- A thread tears down only connections whose other end is gone. -/
theorem Stands.gone_of_tears (stands : x₀.Stands message gone q x thwarted sent p)
    (torn : p.tears x = some id) : gone id = true := by
  cases p with
  | tearDown out id' cause hs =>
    simp only [SendPhase.tears] at torn
    split at torn
    · exact Option.some.inj torn ▸ stands.1
    · cases torn
  | _ => cases torn

/-- Where a thread stands after the step of another one. -/
theorem Stands.acts (stands : x₀.Stands message gone q x thwarted sent p') (acts : p.Acts x y) :
    x₀.Stands message gone q y
      (thwarted ∨ ∃ id, p.tears x = some id ∧ p'.standsOn = some id) sent p' := by
  have opened := isOpen_of_acts acts
  have tabled := mem_table_of_acts acts
  have here : ∀ id, (∃ i, p.tears x = some i ∧ some id = some i) ↔ p.tears x = some id := by
    refine fun id => ⟨?_, fun torn => ⟨id, torn, rfl⟩⟩
    rintro ⟨i, torn, same⟩
    rwa [same]
  cases p' with
  | prepare q' =>
    obtain ⟨rfl, on, rest⟩ := stands
    exact ⟨rfl, fun e => e.elim on nofun, rest⟩
  | route out => exact ⟨fun e => e.elim stands.1 nofun, stands.2⟩
  | visit out hs => exact ⟨fun e => e.elim stands.1 nofun, stands.2⟩
  | write out id intent hs =>
    refine ⟨?_, stands.2⟩
    rw [opened id, stands.1, Bool.and_eq_false_iff, decide_eq_false_iff_not, Decidable.not_not,
      or_comm]
    exact or_congr_left (here id)
  | tearDown out id cause hs =>
    obtain ⟨dead, iff, owes⟩ := stands
    refine ⟨dead, ?_, owes⟩
    rw [tabled id, iff, Decidable.not_and_iff_not_or_not, Decidable.not_not]
    exact or_congr_right (here id)
  | done r =>
    cases r with
    | error e => exact .inl stands
    | ok n => exact ⟨fun e => e.elim stands.1 nofun, stands.2⟩

end Steps

end ModuleContext

theorem sentBy_append (log more : List Delivered) (i : Nat) (id : ConnectionId) :
    sentBy (log ++ more) i id = sentBy log i id ++ sentBy more i id := by
  simp [sentBy]

theorem sentOn_append (log more : List Delivered) (id : ConnectionId) :
    sentOn (log ++ more) id = sentOn log id ++ sentOn more id := by
  simp [sentOn]

namespace Senders

variable {s s₀ : Senders} {message : Message} {gone : ConnectionId → Bool}
variable {thwarted : Nat → Prop} {log : List Delivered}

theorem step_of_some {i : Nat} {p : SendPhase} (h : s.threads[i]? = some p) :
    s.step i = ⟨(p.step s.context).2, s.threads.set i (p.step s.context).1⟩ := by
  simp only [step]
  rw [h]

theorem step_of_none {i : Nat} (h : s.threads[i]? = none) : s.step i = s := by
  simp only [step]
  rw [h]

/-- A thread after a step is the one that stepped, or as it was. -/
theorem threads_step {i j : Nat} {p v : SendPhase} (h : s.threads[j]? = some p)
    (hv : (s.step j).threads[i]? = some v) :
    (i = j ∧ v = (p.step s.context).1) ∨ (i ≠ j ∧ s.threads[i]? = some v) := by
  rw [step_of_some h] at hv
  by_cases hi : i = j
  · subst hi
    have hl : i < s.threads.length := (List.getElem?_eq_some_iff.mp h).1
    rw [List.getElem?_set_self hl] at hv
    exact .inl ⟨rfl, (Option.some.inj hv).symm⟩
  · rw [List.getElem?_set_ne (Ne.symm hi)] at hv
    exact .inr ⟨hi, hv⟩

theorem threads_step_self {i : Nat} {p : SendPhase} (h : s.threads[i]? = some p) :
    (s.step i).threads[i]? = some (p.step s.context).1 := by
  rw [step_of_some h]
  exact List.getElem?_set_self (List.getElem?_eq_some_iff.mp h).1

theorem threads_step_ne {i j : Nat} (h : i ≠ j) : (s.step j).threads[i]? = s.threads[i]? := by
  cases hp : s.threads[j]? with
  | none => rw [step_of_none hp]
  | some p =>
    rw [step_of_some hp]
    exact List.getElem?_set_ne (Ne.symm h)

theorem delivery_of_some {j : Nat} {p : SendPhase} (h : s.threads[j]? = some p) :
    s.delivery j = (p.writes s.context).map fun w => ⟨j, w.1, w.2⟩ := by
  simp only [delivery]
  rw [h]

theorem delivery_of_none {j : Nat} (h : s.threads[j]? = none) : s.delivery j = [] := by
  simp only [delivery]
  rw [h]

/-- What a thread has sent after its step is what it wrote before, and what it writes with it. -/
theorem sentBy_step_self {j : Nat} {p : SendPhase} (h : s.threads[j]? = some p) :
    sentBy (log ++ s.delivery j) j = s.context.sentAfter p (sentBy log j) := by
  funext id
  rw [sentBy_append, delivery_of_some h, ModuleContext.sentAfter]
  simp [sentBy, List.filter_map, Function.comp_def]

theorem sentBy_step_ne {i j : Nat} (h : i ≠ j) : sentBy (log ++ s.delivery j) i = sentBy log i := by
  funext id
  rw [sentBy_append, delivery]
  cases s.threads[j]? with
  | none => exact List.append_nil _
  | some p => simp [sentBy, List.filter_map, Function.comp_def, Ne.symm h]

theorem sentOn_delivery {j : Nat} {p : SendPhase} (h : s.threads[j]? = some p) (id : ConnectionId) :
    sentOn (s.delivery j) id = ((p.writes s.context).filter (·.1 = id)).map (·.2) := by
  rw [delivery_of_some h]
  simp [sentOn, List.filter_map, Function.comp_def]

theorem thwarted_step_self {j : Nat} {p : SendPhase} (h : s.threads[j]? = some p) :
    (s.Overtakes j j ∨ s.Unroutes j j) ↔ p.isUnrouted s.context = true := by
  constructor
  · rintro (⟨ne, -⟩ | ⟨-, p', hp', unrouted⟩)
    · exact absurd rfl ne
    · rwa [Option.some.inj (h.symm.trans hp')]
  · exact fun unrouted => .inr ⟨rfl, p, h, unrouted⟩

theorem thwarted_step_ne {i j : Nat} {p v : SendPhase} (h : s.threads[j]? = some p)
    (hv : s.threads[i]? = some v) (ne : i ≠ j) :
    (s.Overtakes j i ∨ s.Unroutes j i) ↔
      ∃ id, p.tears s.context = some id ∧ v.standsOn = some id := by
  constructor
  · rintro (⟨-, p', v', id, hp', hv', torn, stood⟩ | ⟨same, -⟩)
    · obtain rfl := Option.some.inj (h.symm.trans hp')
      obtain rfl := Option.some.inj (hv.symm.trans hv')
      exact ⟨id, torn, stood⟩
    · exact absurd same.symm ne
  · rintro ⟨id, torn, stood⟩
    exact .inl ⟨Ne.symm ne, p, v, id, h, hv, torn, stood⟩

/-- What holds while threads deliver a message, given who was thwarted and what was written. -/
structure Delivers (s₀ : Senders) (message : Message) (gone : ConnectionId → Bool) (s : Senders)
    (thwarted : Nat → Prop) (log : List Delivered) : Prop where
  retains : s₀.context.Retains message gone s.context
  stands : ∀ i p, s.threads[i]? = some p → ∃ q, s₀.threads[i]? = some (.prepare q) ∧
    s₀.context.Stands message gone q s.context (thwarted i) (sentBy log i) p
  written : ∀ h ∈ message.handlers, ∀ id, h.connection = some id → gone id = false →
    ∃ c d, s₀.context.connection? id = some c ∧ s.context.connection? id = some d ∧
      d.outgoing.written = c.outgoing.written ++ (sentOn log id).flatMap Envelope.wire

theorem Fresh.delivers (h : s.Fresh message gone) : s.Delivers message gone s (fun _ => False) [] := by
  refine ⟨⟨rfl, rfl, rfl, ?_, ?_, ?_⟩, ?_, ?_⟩
  · exact ⟨message, h.known, h.direct, rfl, rfl, fun _ hh _ _ _ => hh, fun _ hh _ _ => hh, h.apart,
      Nat.le_refl _⟩
  · intro handler hh id hc dead
    obtain ⟨i, c, hi, listed, found, opened, left⟩ := h.tracked handler hh
    obtain rfl : id = i := Option.some.inj (hc.symm.trans hi)
    rw [dead] at left
    exact ⟨c, found, left, fun _ => listed, fun _ => opened⟩
  · intro handler hh id hc alive
    obtain ⟨i, c, hi, listed, found, opened, willing⟩ := h.tracked handler hh
    obtain rfl : id = i := Option.some.inj (hc.symm.trans hi)
    rw [alive] at willing
    exact ⟨c, found, opened, willing⟩
  · intro i p hp
    obtain ⟨q, rfl, named, encodes⟩ := h.requests p (List.mem_of_getElem? hp)
    exact ⟨q, hp, rfl, id, fun _ => rfl, named, encodes⟩
  · intro handler hh id hc _
    obtain ⟨i, c, hi, -, found, -⟩ := h.tracked handler hh
    obtain rfl : id = i := Option.some.inj (hc.symm.trans hi)
    exact ⟨c, c, found, found, (List.append_nil _).symm⟩

theorem Delivers.congr {thwarted' : Nat → Prop} (h : s₀.Delivers message gone s thwarted log)
    (same : ∀ i, thwarted i ↔ thwarted' i) : s₀.Delivers message gone s thwarted' log := by
  obtain rfl : thwarted = thwarted' := funext fun i => propext (same i)
  exact h

theorem Delivers.step (h : s₀.Delivers message gone s thwarted log)
    (distinct : message.handlers.Pairwise Handler.Apart) (j : Nat) :
    s₀.Delivers message gone (s.step j) (fun i => thwarted i ∨ s.Overtakes j i ∨ s.Unroutes j i)
      (log ++ s.delivery j) := by
  cases hp : s.threads[j]? with
  | none =>
    rw [step_of_none hp, delivery_of_none hp, List.append_nil]
    refine h.congr fun i => ⟨.inl, fun e => e.resolve_right ?_⟩
    rintro (⟨-, p, _, _, hp', -⟩ | ⟨rfl, p, hp', -⟩) <;> cases hp.symm.trans hp'
  | some p =>
    obtain ⟨q, hq, standing⟩ := h.stands j p hp
    have acts := p.acts s.context
    have context : (s.step j).context = (p.step s.context).2 := by rw [step_of_some hp]
    refine ⟨?_, fun i v hv => ?_, fun handler hh id hc alive => ?_⟩
    · rw [context]
      exact h.retains.acts acts fun id torn => standing.gone_of_tears torn
    · rw [context]
      rcases threads_step hp hv with ⟨rfl, rfl⟩ | ⟨ne, hv⟩
      · refine ⟨q, hq, ?_⟩
        rw [thwarted_step_self hp, sentBy_step_self hp]
        exact standing.step h.retains distinct
      · obtain ⟨q', hq', standing'⟩ := h.stands i v hv
        refine ⟨q', hq', ?_⟩
        rw [thwarted_step_ne hp hv ne, sentBy_step_ne ne]
        exact standing'.acts acts
    · obtain ⟨c, d, hc₀, hd, grown⟩ := h.written handler hh id hc alive
      obtain ⟨e, he, -, willing⟩ := h.retains.alive handler hh id hc alive
      obtain rfl := Option.some.inj (hd.symm.trans he)
      obtain ⟨f, hf, more⟩ := ModuleContext.written_of_acts acts hd willing
      refine ⟨c, f, hc₀, context ▸ hf, ?_⟩
      rw [more, grown, sentOn_append, sentOn_delivery hp, List.flatMap_append, List.flatMap_map,
        List.append_assoc]

/-- A whole run of threads. -/
theorem Delivers.run (h : s₀.Delivers message gone s thwarted log)
    (distinct : message.handlers.Pairwise Handler.Apart) (schedule : List Nat) :
    s₀.Delivers message gone (s.run schedule) (fun i => thwarted i ∨ s.Thwarts i schedule)
      (log ++ s.deliveries schedule) := by
  induction schedule generalizing s thwarted log with
  | nil =>
    rw [deliveries, List.append_nil]
    exact h.congr fun i => ⟨.inl, fun e => e.resolve_right id⟩
  | cons j js ih =>
    rw [deliveries, ← List.append_assoc]
    exact (ih (h.step distinct j)).congr fun i => or_assoc

/-- A thread of a run has so many steps less to go as it has taken. -/
theorem Delivers.stepsLeft_run (h : s₀.Delivers message gone s thwarted log)
    (distinct : message.handlers.Pairwise Handler.Apart) {i : Nat} {p : SendPhase}
    (hp : s.threads[i]? = some p) (schedule : List Nat) :
    ∃ p', (s.run schedule).threads[i]? = some p' ∧
      p'.stepsLeft message.handlers.length ≤
        p.stepsLeft message.handlers.length - schedule.count i := by
  induction schedule generalizing s thwarted log p with
  | nil => exact ⟨p, hp, Nat.le_refl _⟩
  | cons j js ih =>
    by_cases same : i = j
    · subst same
      obtain ⟨q, -, standing⟩ := h.stands i p hp
      have nearer : (p.step s.context).1.stepsLeft message.handlers.length ≤
          p.stepsLeft message.handlers.length - 1 := by
        refine SendPhase.stepsLeft_step fun q' m prepares found => ?_
        subst prepares
        obtain ⟨rfl, -, -, named, -⟩ := standing
        obtain ⟨left, known, keeps⟩ := h.retains.kept
        obtain rfl := Option.some.inj (known.symm.trans (named ▸ found))
        exact keeps.fewer
      obtain ⟨p', hp', fewer⟩ := ih (h.step distinct i) (threads_step_self hp)
      refine ⟨p', hp', ?_⟩
      rw [List.count_cons_self]
      omega
    · obtain ⟨p', hp', fewer⟩ := ih (h.step distinct j) ((threads_step_ne same).trans hp)
      refine ⟨p', hp', ?_⟩
      rwa [List.count_cons_of_ne (Ne.symm same)]

/-- A thread that sends a message to its handlers ends after so many of its own steps. It fails
exactly if another thread tears down a connection that it has tested, or the router fails it; else
it writes its envelope once to every handler whose other end is alive. What these connections take
is whole envelopes, one after the other. -/
theorem fails_iff (fresh : s.Fresh message gone) {i : Nat} {q : SendRequest}
    (hq : s.threads[i]? = some (.prepare q)) (schedule : List Nat) :
    (3 * message.handlers.length + 2 ≤ schedule.count i →
      ∃ r, (s.run schedule).threads[i]? = some (.done r)) ∧
    (∀ r, (s.run schedule).threads[i]? = some (.done r) →
      ((∃ e, r = .error e) ↔ s.Thwarts i schedule) ∧
      ∀ n, r = .ok n → ∃ m, s.context.EncodesAs message q n m ∧
        ∀ h ∈ message.handlers, ∀ id, h.connection = some id → gone id = false →
          sentBy (s.deliveries schedule) i id = [m.withIntent h.intent]) ∧
    ∀ h ∈ message.handlers, ∀ id, h.connection = some id → gone id = false →
      ∃ c d, s.context.connection? id = some c ∧ (s.run schedule).context.connection? id = some d ∧
        d.outgoing.written = c.outgoing.written ++
          (sentOn (s.deliveries schedule) id).flatMap Envelope.wire := by
  have ran := fresh.delivers.run fresh.apart schedule
  rw [List.nil_append] at ran
  refine ⟨fun enough => ?_, fun r hr => ?_, ran.written⟩
  · obtain ⟨p, hp, fewer⟩ := fresh.delivers.stepsLeft_run fresh.apart hq schedule
    have ended : p.stepsLeft message.handlers.length = 0 :=
      Nat.eq_zero_of_le_zero (Nat.le_trans fewer (Nat.le_of_eq (Nat.sub_eq_zero_of_le enough)))
    cases p with
    | done r => exact ⟨r, hp⟩
    | _ => cases ended
  · obtain ⟨q', hq', standing⟩ := ran.stands i _ hr
    cases hq.symm.trans hq'
    cases r with
    | error e =>
      have thwarted : s.Thwarts i schedule := standing.resolve_left id
      refine ⟨iff_of_true ⟨e, rfl⟩ thwarted, fun n hn => ?_⟩
      cases hn
    | ok n =>
      obtain ⟨on, out, rfl, owes⟩ := standing
      have returns : ¬ ∃ e, (.ok out.messageRef : Except PeerError Int32) = .error e := by
        rintro ⟨_, he⟩
        cases he
      refine ⟨iff_of_false returns fun thwarted => on (.inr thwarted), fun n hn => ?_⟩
      obtain rfl := Except.ok.inj hn
      refine ⟨out.envelope, owes.encoded, fun h hh id hc alive => ?_⟩
      exact owes.served h hh id hc alive

def returned (s : Senders) (i : Nat) : Option (Except PeerError Int32) :=
  match s.threads[i]? with
  | some (.done r) => some r
  | _ => none

theorem done_of_returned {i : Nat} {r : Except PeerError Int32} (h : s.returned i = some r) :
    s.threads[i]? = some (.done r) := by
  unfold returned at h
  split at h
  · rename_i hp
    rw [hp, Option.some.inj h]
  · cases h

def unlessLeft (left id : ConnectionId) (name : String) : Connection :=
  { ModuleContext.attended name with outgoing := { gone := left = id } }

/-- Two threads send one message, for a handler that listens and for one that has left. -/
def twoSenders (left : ConnectionId) : Senders where
  context := ({} : ModuleContext).performAll [
    .opens (unlessLeft left 0 "router"), .attachRouter 0, .opens (unlessLeft left 1 "peer"),
    .addConnection 1, .opens (unlessLeft left 2 "other"), .addConnection 2,
    .register ⟨"goal", 7, .goal, none, none, true, []⟩, .addHandler "goal" 1 3,
    .addHandler "goal" left 4]
  threads := [.prepare { message := "goal" }, .prepare { message := "goal" }]

def halfLeft (left : ConnectionId) : Message where
  name := "goal"
  id := 7
  messageClass := .goal
  direct := true
  handlers := [⟨some 1, 3⟩, ⟨some left, 4⟩]

def halfLeftEnvelope (messageRef : Int32) : Envelope :=
  ⟨⟨0, 0, -1, -1, 0x22000002, -1, messageRef⟩, [], []⟩

theorem twoSenders_fresh : (twoSenders 2).Fresh (halfLeft 2) (· = 2) := by
  have encodes : (twoSenders 2).context.EncodesAs (halfLeft 2) { message := "goal" } 1
      (halfLeftEnvelope 1) :=
    ⟨noRef, rfl, by decide +kernel⟩
  refine ⟨rfl, rfl, fun handler hh => ?_, ?_, fun p hp => ?_⟩
  · simp only [halfLeft, List.mem_cons, List.not_mem_nil, or_false] at hh
    rcases hh with rfl | rfl
    · exact ⟨1, unlessLeft 2 1 "peer", rfl, by decide +kernel, by decide +kernel, rfl, rfl, nofun⟩
    · exact ⟨2, unlessLeft 2 2 "other", rfl, by decide +kernel, by decide +kernel, rfl, rfl⟩
  · simp [halfLeft, Handler.Apart]
  · simp only [twoSenders, List.mem_cons, List.not_mem_nil, or_false, or_self] at hp
    exact ⟨_, hp, rfl, 1, halfLeftEnvelope 1, encodes⟩

/-- Both threads find the connection open whose other end has left. One tears it down; the other one
then fails to write to it. -/
def overtaking : List Nat := [0, 0, 1, 1, 0, 0, 1, 0, 0, 0]

/-- The second call fails, and the handler that listens never gets its envelope. -/
theorem fails_overtaken :
    (twoSenders 2).Fresh (halfLeft 2) (· = 2) ∧
      ((twoSenders 2).run overtaking).returned 0 = some (.ok 1) ∧
      ((twoSenders 2).run overtaking).returned 1 =
        some (.error (.frame (.transport (.closed "other")))) ∧
      (((twoSenders 2).run overtaking).context.connection? 1).map (·.outgoing.written) =
        some ((halfLeftEnvelope 1).withIntent 3).wire := by
  exact ⟨twoSenders_fresh, by decide +kernel⟩

theorem fails_iff_overtaken :
    (twoSenders 2).Thwarts 1 overtaking ∧ ¬ (twoSenders 2).Thwarts 0 overtaking ∧
      ∃ m, (twoSenders 2).context.EncodesAs (halfLeft 2) { message := "goal" } 1 m ∧
        sentBy ((twoSenders 2).deliveries overtaking) 0 1 = [m.withIntent 3] := by
  have served : ((twoSenders 2).run overtaking).returned 0 = some (.ok 1) := by decide +kernel
  have failed : ((twoSenders 2).run overtaking).returned 1 =
      some (.error (.frame (.transport (.closed "other")))) := by decide +kernel
  obtain ⟨-, first, -⟩ := fails_iff twoSenders_fresh (i := 0) rfl overtaking
  obtain ⟨-, second, -⟩ := fails_iff twoSenders_fresh (i := 1) rfl overtaking
  obtain ⟨spared, sent⟩ := first _ (done_of_returned served)
  obtain ⟨m, encoded, handlers⟩ := sent 1 rfl
  refine ⟨(second _ (done_of_returned failed)).1.mp ⟨_, rfl⟩, ?_, m, encoded, ?_⟩
  · rw [← spared]
    rintro ⟨_, he⟩
    cases he
  · exact handlers ⟨some 1, 3⟩ (List.mem_cons_self ..) 1 rfl rfl

def inTurn : List Nat := [0, 0, 0, 0, 0, 0, 0, 1]

/-- The first call loses the router, which had a handler, and the second one stops at that. -/
example :
    ((twoSenders 0).run inTurn).returned 0 = some (.ok 1) ∧
      ((twoSenders 0).run inTurn).returned 1 = some (.error .notConnected) ∧
      (((twoSenders 0).run inTurn).context.connection? 1).map (·.outgoing.written) =
        some ((halfLeftEnvelope 1).withIntent 3).wire := by
  decide +kernel

end Senders

end ModuleLink
