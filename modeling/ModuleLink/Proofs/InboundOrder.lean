import ModuleLink.Proofs.EnvelopeCustody

/-! # The order of the inbound queue

A thread files an envelope after it has let the read side go, so a thread that read a later one may
file first. The inbound queue is in the order of arrival as long as no thread files an envelope
while an earlier one is in the hands of another. -/
namespace ModuleLink

/-- The header of an envelope tells its lengths, and they are within the limits. -/
def Envelope.Standard (m : Envelope) (limits : Limits) : Prop :=
  m.Sized ∧ m.header.Fits limits

namespace Ledger

def isOther (l : Ledger) (n : Nat) : Bool :=
  match l.items[n]? with
  | some ⟨some _, m⟩ => m.intent ≠ queryReplyIntent
  | _ => false

/-- The envelopes for the inbound queue, in the order in which they came off the connection. -/
def others (l : Ledger) : List Nat :=
  (List.range l.items.length).filter fun n => l.isOther n && decide (n ∉ l.refused)

variable {l : Ledger} {n : Nat}

theorem isOther_iff : l.isOther n ↔ ∃ m, l.IsOther n m := by
  unfold isOther IsOther
  constructor
  · intro h
    split at h
    · rename_i reader m known
      exact ⟨m, reader, known, by simpa using h⟩
    · cases h
  · rintro ⟨m, reader, known, other⟩
    rw [known]
    simpa using other

theorem mem_others : n ∈ l.others ↔ (∃ m, l.IsOther n m) ∧ n ∉ l.refused := by
  simp only [others, List.mem_filter, List.mem_range, Bool.and_eq_true, decide_eq_true_eq,
    isOther_iff, and_iff_right_iff_imp]
  rintro ⟨⟨m, reader, known, -⟩, -⟩
  exact (List.getElem?_eq_some_iff.mp known).1

theorem others_sorted (l : Ledger) : l.others.Pairwise (· < ·) := List.pairwise_lt_range.filter _

private theorem others_grow {l' : Ledger} {item : Item} (items : l'.items = l.items ++ [item])
    (refused : ∀ k < l.items.length, k ∈ l'.refused ↔ k ∈ l.refused) : l.others <+: l'.others := by
  have same : (List.range l.items.length).filter (fun n => l'.isOther n && decide (n ∉ l'.refused)) =
      l.others := by
    refine List.filter_congr fun n hn => ?_
    have lt := List.mem_range.mp hn
    simp only [isOther, items, List.getElem?_append_left lt, refused n lt]
  rw [← same]
  simp only [others, items, List.length_append, List.length_singleton, List.range_succ,
    List.filter_append]
  exact List.prefix_append ..

/-- What is for the inbound queue stays so, and comes before all that is taken later. -/
theorem others_record (l : Ledger) (i : Nat) (t : Handling) : l.others <+: (l.record i t).others := by
  cases t with
  | takes m => exact others_grow rfl fun _ _ => .rfl
  | refuses m =>
    refine others_grow rfl fun k lt => ?_
    simp only [record, List.mem_append, List.mem_singleton, or_iff_left_iff_imp]
    rintro rfl
    exact absurd lt (Nat.lt_irrefl _)
  | _ => exact List.prefix_refl _

theorem mem_under {pairs : List (Nat × Nat)} {i : Nat} : n ∈ under pairs i ↔ (i, n) ∈ pairs := by
  simp [under]

theorem Accounted.apart (h : l.Accounted) :
    (∀ n ∈ l.filed, n ∉ l.refused ∧ ∀ j, (j, n) ∉ l.held) ∧
      ∀ j n, (j, n) ∈ l.held → n ∉ l.refused := by
  have nodup : l.numbers.Nodup := h.nodup_iff.mpr List.nodup_range
  simp only [numbers, List.nodup_append, List.mem_append] at nodup
  obtain ⟨⟨⟨⟨-, -, -⟩, -, heldFiled⟩, -, beforeRefused⟩, -, -⟩ := nodup
  have mem : ∀ {j n}, (j, n) ∈ l.held → n ∈ l.held.map Prod.snd :=
    fun hn => List.mem_map.mpr ⟨_, hn, rfl⟩
  refine ⟨fun n filed => ⟨fun refused => ?_, fun j held => ?_⟩, fun j n held refused => ?_⟩
  · exact beforeRefused n (.inr filed) n refused rfl
  · exact heldFiled n (.inl (mem held)) n filed rfl
  · exact beforeRefused n (.inl (.inl (mem held))) n refused rfl

theorem filterMap_of_isOther {ns : List Nat} {ms : List Envelope}
    (h : List.Forall₂ l.IsOther ns ms) :
    ns.filterMap (fun n => l.items[n]?.map (·.envelope)) = ms := by
  induction h with
  | nil => rfl
  | cons first _ ih =>
    obtain ⟨reader, known, -⟩ := first
    rw [List.filterMap_cons, known, ih]
    rfl

end Ledger

namespace Custody

/-- What was filed is the first of what is for the inbound queue. -/
def InOrder (c : Custody) : Prop := c.ledger.filed <+: c.ledger.others

/-- A thread files an envelope while an earlier one for the inbound queue is still held. -/
def Overtakes (c : Custody) : CustodyEvent → Prop
  | .happens (.steps i) => c.waiters.handling i = .files ∧ ∃ n j k, (i, n) ∈ c.ledger.held ∧
      (j, k) ∈ c.ledger.held ∧ k < n ∧ c.ledger.isOther k
  | _ => False

variable {c : Custody} {earlier : List Envelope}

private theorem exists_of_mem {α β : Type} {r : α → β → Prop} {as : List α} {bs : List β} {a : α}
    (h : List.Forall₂ r as bs) (ha : a ∈ as) : ∃ b, r a b := by
  induction h with
  | nil => cases ha
  | cons first _ ih =>
    rcases List.mem_cons.mp ha with rfl | ha
    · exact ⟨_, first⟩
    · exact ih ha

private theorem not_isOther_of_isReply {n : Nat} {m : Envelope} (h : c.ledger.IsReply n m) :
    c.ledger.isOther n = false := by
  obtain ⟨reader, known, reply⟩ := h
  unfold Ledger.isOther
  rw [known]
  cases reader with
  | none => rfl
  | some i => simp [reply rfl]

/-- What is for the inbound queue is filed, or in somebody's hands. -/
private theorem Sound.mem_others (h : c.Sound earlier) {n : Nat} :
    n ∈ c.ledger.others ↔ n ∈ c.ledger.filed ∨
      ∃ j, (j, n) ∈ c.ledger.held ∧ c.ledger.isOther n := by
  obtain ⟨filedApart, heldApart⟩ := h.accounted.apart
  obtain ⟨ms, -, isFiled⟩ := h.filed
  rw [Ledger.mem_others, ← Ledger.isOther_iff]
  constructor
  · rintro ⟨other, kept⟩
    obtain ⟨m, reader, known, -⟩ := Ledger.isOther_iff.mp other
    have placed : n ∈ c.ledger.numbers :=
      h.accounted.mem_iff.mpr (List.mem_range.mpr (List.getElem?_eq_some_iff.mp known).1)
    simp only [Ledger.numbers, List.mem_append] at placed
    rcases placed with (((held | pending) | filed) | refused) | returned
    · obtain ⟨⟨j, k⟩, hj, rfl⟩ := List.mem_map.mp held
      exact .inr ⟨j, hj, other⟩
    · obtain ⟨m, reply⟩ := exists_of_mem h.pending pending
      exact absurd other (by simp [not_isOther_of_isReply reply])
    · exact .inl filed
    · exact absurd refused kept
    · obtain ⟨⟨j, k⟩, hj, rfl⟩ := List.mem_map.mp returned
      have numbered := h.returned j
      generalize c.waiters.answer? j = o, hu : Ledger.under c.ledger.returned j = ns at numbered
      have mine : k ∈ ns := hu ▸ Ledger.mem_under.mpr hj
      cases numbered with
      | nothing => cases mine
      | one answer =>
        obtain rfl := List.mem_singleton.mp mine
        obtain ⟨m, reply, -⟩ := answer
        exact absurd other (by simp [not_isOther_of_isReply reply])
  · rintro (filed | ⟨j, held, other⟩)
    · obtain ⟨m, other⟩ := exists_of_mem isFiled filed
      exact ⟨Ledger.isOther_iff.mpr ⟨m, other⟩, (filedApart n filed).1⟩
    · exact ⟨other, heldApart j n held⟩

private theorem prefix_concat_iff {ns rest : List Nat} {n : Nat} (sorted : rest.Pairwise (· < ·))
    (hn : n ∈ rest) : ns ++ [n] <+: ns ++ rest ↔ ∀ k ∈ rest, ¬ k < n := by
  rw [List.prefix_append_right_inj]
  cases rest with
  | nil => cases hn
  | cons a rest =>
    obtain ⟨least, -⟩ := List.pairwise_cons.mp sorted
    simp only [List.cons_prefix_cons, List.nil_prefix, and_true]
    constructor
    · rintro rfl k hk lt
      rcases List.mem_cons.mp hk with rfl | hk
      · exact Nat.lt_irrefl _ lt
      · exact Nat.lt_asymm lt (least k hk)
    · intro first
      rcases List.mem_cons.mp hn with rfl | hn
      · rfl
      · exact absurd (least n hn) (first a (List.mem_cons_self ..))

section Step

variable {i : Nat}

/-- A thread that files keeps the order unless it passes an earlier envelope. -/
private theorem Sound.files_iff (h : c.Sound earlier) (order : c.InOrder) {n : Nat} {m : Envelope}
    (single : Ledger.under c.ledger.held i = [n]) (other : c.ledger.IsOther n m) :
    c.ledger.filed ++ [n] <+: c.ledger.others ↔
      ∀ j k, (j, k) ∈ c.ledger.held → c.ledger.isOther k → ¬ k < n := by
  obtain ⟨rest, split⟩ := id order
  have sorted := c.ledger.others_sorted
  rw [← split] at sorted ⊢
  have held : (i, n) ∈ c.ledger.held := Ledger.mem_under.mp (single ▸ List.mem_cons_self ..)
  have apart := h.accounted.apart.1
  have left : ∀ k, k ∈ rest ↔ ∃ j, (j, k) ∈ c.ledger.held ∧ c.ledger.isOther k := by
    intro k
    have member := h.mem_others (n := k)
    rw [← split, List.mem_append] at member
    constructor
    · intro hk
      refine (member.mp (.inr hk)).resolve_left fun filed => ?_
      exact absurd ((List.pairwise_append.mp sorted).2.2 k filed k hk) (Nat.lt_irrefl k)
    · rintro ⟨j, hj, ho⟩
      exact (member.mpr (.inr ⟨j, hj, ho⟩)).resolve_left fun filed => (apart k filed).2 j hj
  have mine : n ∈ rest := (left n).mpr ⟨i, held, Ledger.isOther_iff.mpr ⟨m, other⟩⟩
  rw [prefix_concat_iff (List.pairwise_append.mp sorted).2.1 mine]
  constructor
  · exact fun first j k hj ho => first k ((left k).mpr ⟨j, hj, ho⟩)
  · intro first k hk
    obtain ⟨j, hj, ho⟩ := (left k).mp hk
    exact first j k hj ho

private theorem filed_record {l : Ledger} {t : Handling} (h : t ≠ .files) :
    (l.record i t).filed = l.filed := by
  cases t with
  | files => exact absurd rfl h
  | _ => rfl

/-- What a thread files was in its hands, and answers no query. -/
private theorem Sound.files (h : c.Sound earlier) (files : c.waiters.handling i = .files) :
    ∃ n m, Ledger.under c.ledger.held i = [n] ∧ c.ledger.IsOther n m := by
  cases hw : c.waiters.threads[i]? with
  | none =>
    rw [Waiters.handling_of_none hw] at files
    cases files
  | some w =>
    have carries := w.step_carries c.waiters.context
    rw [Waiters.handling_of_some hw] at files
    rw [files] at carries
    cases carries with
    | @files id m hand _ other =>
      obtain ⟨n, single, known⟩ := h.held_one hw hand
      exact ⟨n, m, single, i, known, other⟩

private theorem Sound.inOrder_steps_iff (h : c.Sound earlier) (order : c.InOrder)
    (router : ConnectionId) :
    (c.happen router (.happens (.steps i))).InOrder ↔ ¬ c.Overtakes (.happens (.steps i)) := by
  show (c.ledger.record i (c.waiters.handling i)).filed <+:
    (c.ledger.record i (c.waiters.handling i)).others ↔ _
  simp only [Overtakes]
  by_cases files : c.waiters.handling i = .files
  · obtain ⟨n, m, single, other⟩ := h.files files
    have held : ∀ k, (i, k) ∈ c.ledger.held ↔ k = n := by
      intro k
      rw [← Ledger.mem_under, single, List.mem_singleton]
    have filed : (c.ledger.record i .files).filed = c.ledger.filed ++ [n] := by
      simp only [Ledger.record, single]
    rw [files, filed, show (c.ledger.record i .files).others = c.ledger.others from rfl,
      h.files_iff order single other]
    simp only [true_and, held]
    constructor
    · rintro first ⟨_, j, k, rfl, hj, lt, ho⟩
      exact first j k hj ho lt
    · exact fun none j k hj ho lt => none ⟨n, j, k, rfl, hj, lt, ho⟩
  · simp only [files, false_and, not_false_eq_true, iff_true]
    rw [filed_record files]
    exact order.trans (c.ledger.others_record i _)

/-- An event leaves the queue in order unless a thread overtakes another one with it. -/
theorem Sound.inOrder_happen_iff (h : c.Sound earlier) (order : c.InOrder) (router : ConnectionId)
    (event : CustodyEvent) : (c.happen router event).InOrder ↔ ¬ c.Overtakes event := by
  match event with
  | .happens (.steps i) => exact h.inOrder_steps_iff order router
  | .happens (.arrives bytes) => exact iff_of_true order id
  | .happens .hangsUp => exact iff_of_true order id
  | .takesInbound => exact iff_of_true order id

end Step

/-- Along a run the queue is in order exactly if no thread overtakes another one. -/
theorem Sound.inOrder_throughout_iff (h : c.Sound earlier) (order : c.InOrder)
    (router : ConnectionId) (events : List CustodyEvent) :
    (∀ done, done <+: events → (c.after router done).InOrder) ↔
      ∀ done event, done ++ [event] <+: events → ¬ (c.after router done).Overtakes event := by
  induction events generalizing c with
  | nil =>
    refine iff_of_true ?_ ?_
    · intro done hd
      rw [List.prefix_nil.mp hd]
      exact order
    · intro done event hd
      exact absurd (List.prefix_nil.mp hd) (List.append_ne_nil_of_right_ne_nil _ nofun)
  | cons event events ih =>
    have first := h.inOrder_happen_iff order router event
    have later := fun order' => ih (h.happen router event) order'
    constructor
    · intro all done event' hd
      cases done with
      | nil =>
        obtain ⟨rfl, -⟩ := List.cons_prefix_cons.mp hd
        exact first.mp (all [event'] (List.cons_prefix_cons.mpr ⟨rfl, List.nil_prefix⟩))
      | cons e done =>
        obtain ⟨rfl, hd'⟩ := List.cons_prefix_cons.mp hd
        have now := all [e] (List.cons_prefix_cons.mpr ⟨rfl, List.nil_prefix⟩)
        exact (later now).mp (fun done hd => all (e :: done) (List.cons_prefix_cons.mpr ⟨rfl, hd⟩))
          done event' hd'
    · intro none done hd
      rcases List.prefix_cons_iff.mp hd with rfl | ⟨rest, rfl, hr⟩
      · exact order
      · have now := first.mpr (none [] event (List.cons_prefix_cons.mpr ⟨rfl, List.nil_prefix⟩))
        exact (later now).mpr (fun done event' hd => none (event :: done) event'
          (List.cons_prefix_cons.mpr ⟨rfl, hd⟩)) rest hr

def inboundMail (c : Custody) : List Envelope :=
  c.ledger.others.filterMap fun n => c.ledger.items[n]?.map (·.envelope)

/-- A queue that is in order holds what came off the connection first, and hands it out first. -/
theorem Sound.arrivals_first (h : c.Sound earlier) (order : c.InOrder) :
    c.arrivals <+: earlier ++ c.inboundMail := by
  obtain ⟨ms, arrived, filed⟩ := h.filed
  rw [arrived, List.prefix_append_right_inj, ← Ledger.filterMap_of_isOther filed]
  exact order.filterMap _

/-- However threads that wait for replies to different queries step, the inbound queue is in the order
of arrival throughout exactly if no thread files an envelope while an earlier one is in the hands of
another; then what is handed out came off the connection first. While envelopes within the limits
arrive whole, those that came off the connection are the first ones that arrived. -/
theorem inOrder_iff {s : Waiters} {router : ConnectionId} (fresh : s.Fresh router)
    (events : List CustodyEvent) :
    ((∀ done, done <+: events → ((opening router s).after router done).InOrder) ↔
      ∀ done event, done ++ [event] <+: events →
        ¬ ((opening router s).after router done).Overtakes event) ∧
    let c := (opening router s).after router events
    (c.InOrder → c.arrivals <+: s.context.inbound.map Prod.snd ++ c.inboundMail) ∧
      ∀ d, s.context.connection? router = some d → (∀ turn ∈ d.incoming.turns, turn.goesOn) →
        IsMail (·.Standard s.context.settings.limits) d.incoming.unread →
        (∀ bytes, .happens (.arrives bytes) ∈ events →
          IsMail (·.Standard s.context.settings.limits) bytes) →
        c.Fed router s.context.settings.limits (·.Standard s.context.settings.limits) := by
  have sound : (opening router s).Sound (s.context.inbound.map Prod.snd) :=
    sound_opening fresh.looking
  have order : (opening router s).InOrder := List.nil_prefix
  refine ⟨sound.inOrder_throughout_iff order router events, ?_, ?_⟩
  · exact (sound.after router events).arrivals_first
  · intro d hd hs first mail
    exact fed_after fresh hd hs first (fun m standard => standard) mail

/-- Two envelopes for nobody arrive. The first thread reads one and lets the read side go. The second
thread reads the other and files it. -/
def passedOver : List CustodyEvent :=
  [(Envelope.plain 3 noRef [1]).wire, (Envelope.plain 3 noRef [2]).wire].map
      (.happens <| .arrives ·) ++
    [0, 0, 0, 0, 0, 1, 1, 1, 1, 1, 1].map (.happens <| .steps ·) ++ [.takesInbound]

/-- The second envelope is handed out, and the first one is still in the hands of its reader. -/
theorem handsOut_passedOver :
    let c := (opening 0 Waiters.twoWaiters).after 0 passedOver
    c.handed = [(0, Envelope.plain 3 noRef [2])] ∧
      c.inboundMail = [Envelope.plain 3 noRef [1], Envelope.plain 3 noRef [2]] ∧
      c.ledger.held = [(0, 0)] := by
  decide +kernel

theorem inOrder_iff_passedOver :
    Waiters.twoWaiters.Fresh 0 ∧
      (∃ done event, done ++ [event] <+: passedOver ∧
        ((opening 0 Waiters.twoWaiters).after 0 done).Overtakes event) ∧
      ((opening 0 Waiters.twoWaiters).after 0 passedOver).Fed 0 {} (·.Standard {}) := by
  have mail : ∀ bytes, .happens (.arrives bytes) ∈ passedOver → IsMail (·.Standard {}) bytes := by
    intro bytes h
    have either : bytes = (Envelope.plain 3 noRef [1]).wire ∨
        bytes = (Envelope.plain 3 noRef [2]).wire := by
      simpa [passedOver] using h
    rcases either with rfl | rfl
    · exact isMail_wire ⟨⟨rfl, rfl⟩, by decide⟩
    · exact isMail_wire ⟨⟨rfl, rfl⟩, by decide⟩
  have filed : ((opening 0 Waiters.twoWaiters).after 0 passedOver).ledger.filed = [1] := by
    decide +kernel
  have others : ((opening 0 Waiters.twoWaiters).after 0 passedOver).ledger.others = [0, 1] := by
    decide +kernel
  obtain ⟨iff, -, fed⟩ := inOrder_iff Waiters.twoWaiters_fresh passedOver
  refine ⟨Waiters.twoWaiters_fresh, ?_, fed _ rfl nofun ⟨[], nofun, rfl⟩ mail⟩
  by_contra none
  have order : ((opening 0 Waiters.twoWaiters).after 0 passedOver).InOrder :=
    iff.mpr (fun done event hd passes => none ⟨done, event, hd, passes⟩) _ (List.prefix_refl _)
  rw [InOrder, filed, others] at order
  exact absurd order (by decide)

def narrowWaiters : Waiters :=
  { Waiters.twoWaiters with
    context := { ModuleContext.quiet with settings := { limits := ⟨16, 16⟩ } } }

/-- A reply whose payload is too large, and looks like an envelope. -/
def hollowReply : Envelope := .plain queryReplyIntent 9 (Envelope.plain 3 noRef [1]).wire

/-- The first thread is refused the reply, and has taken its header. The second one goes on in its
payload. -/
def insideReply : List CustodyEvent :=
  [hollowReply.wire, (Envelope.plain 3 noRef [2]).wire].map (.happens <| .arrives ·) ++
    [0, 0, 0, 0, 0, 0, 1, 1, 1, 1, 1, 1].map (.happens <| .steps ·) ++ [.takesInbound]

/-- What is handed out is part of another envelope, and the one that arrived is still to be read. -/
example :
    let c := (opening 0 narrowWaiters).after 0 insideReply
    c.handed = [(0, Envelope.plain 3 noRef [1])] ∧
      c.stream = [hollowReply, Envelope.plain 3 noRef [2]].flatMap Envelope.wire ∧
      unread c.waiters.context 0 = (Envelope.plain 3 noRef [2]).wire := by
  decide +kernel

end Custody

end ModuleLink
