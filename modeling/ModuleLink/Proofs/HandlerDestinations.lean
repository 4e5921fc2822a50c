import ModuleLink.Proofs.SendSteps

/-! # Where a message for its handlers goes

A handler is reached on its connection while that is open. Of the handlers on a broken connection the
first one is attempted; then the connection is torn down, and its handlers are detached. -/
namespace ModuleLink

def Handler.detachFrom (torn : ConnectionId → Bool) (h : Handler) : Handler :=
  if h.connection.any torn then { h with connection := none } else h

/-- Detaches the handlers on several connections. When the last one goes the whole list goes with
it. -/
def Message.detachFrom (torn : ConnectionId → Bool) (m : Message) : Message :=
  let handlers := m.handlers.map (Handler.detachFrom torn)
  { m with handlers :=
      if m.handlers.any (·.connection.any torn) ∧ handlers.all (·.connection = none) then []
      else handlers }

theorem Handler.detachFrom_detach (h : Handler) (id : ConnectionId) (torn : ConnectionId → Bool) :
    (h.detach id).detachFrom torn = h.detachFrom fun i => decide (i = id) || torn i := by
  obtain ⟨connection, intent⟩ := h
  cases connection with
  | none => rfl
  | some i =>
    by_cases hi : i = id
    · simp [Handler.detach, Handler.detachFrom, hi]
    · simp [Handler.detach, Handler.detachFrom, hi]

theorem Handler.connection_detachFrom {h : Handler} (torn : ConnectionId → Bool)
    (hc : h.connection = none) : (h.detachFrom torn).connection = none := by
  simp [Handler.detachFrom, hc]

theorem Handler.detachFrom_of_not_torn {h : Handler} {torn : ConnectionId → Bool}
    (ht : h.connection.any torn = false) : h.detachFrom torn = h := by
  simp [Handler.detachFrom, ht]

theorem Message.detachFrom_congr {m : Message} {torn torn' : ConnectionId → Bool}
    (same : ∀ h ∈ m.handlers, h.connection.any torn = h.connection.any torn') :
    m.detachFrom torn = m.detachFrom torn' := by
  have any : m.handlers.any (·.connection.any torn) = m.handlers.any (·.connection.any torn') := by
    rw [Bool.eq_iff_iff, List.any_eq_true, List.any_eq_true]
    exact exists_congr fun h => and_congr_right fun hh => by rw [same h hh]
  have each : m.handlers.map (Handler.detachFrom torn) =
      m.handlers.map (Handler.detachFrom torn') :=
    List.map_congr_left fun h hh => by rw [Handler.detachFrom, same h hh, Handler.detachFrom]
  rw [Message.detachFrom, any, each, Message.detachFrom]

/-- Detaching from one connection and then from others is detaching from all of them. -/
theorem Message.detachFrom_detachAll (m : Message) (id : ConnectionId) (torn : ConnectionId → Bool) :
    (m.detachAll id).detachFrom torn = m.detachFrom fun i => decide (i = id) || torn i := by
  have twice : (m.handlers.map (Handler.detach id)).map (Handler.detachFrom torn) =
      m.handlers.map (Handler.detachFrom fun i => decide (i = id) || torn i) := by
    rw [List.map_map]
    exact List.map_congr_left fun h _ => h.detachFrom_detach id torn
  by_cases hid : m.handlers.any (·.connection = some id) = true
  · have touched : m.handlers.any (·.connection.any fun i => decide (i = id) || torn i) = true := by
      obtain ⟨h, hh, hc⟩ := List.any_eq_true.mp hid
      exact List.any_eq_true.mpr ⟨h, hh, by simp [of_decide_eq_true hc]⟩
    simp only [Message.detachAll, Message.detachFrom, hid, touched, if_true, true_and, ← twice]
    generalize m.handlers.map (Handler.detach id) = handlers
    simp only [List.all_eq_true, decide_eq_true_eq]
    by_cases before : ∀ h ∈ handlers, h.connection = none
    · have after : ∀ h ∈ handlers, (h.detachFrom torn).connection = none :=
        fun h hh => h.connection_detachFrom torn (before h hh)
      have after' : ∀ h ∈ handlers.map (Handler.detachFrom torn), h.connection = none := by
        simpa using after
      rw [if_pos before, if_pos after']
      rfl
    · have torn_of : (∀ h ∈ handlers, (h.detachFrom torn).connection = none) →
          ∃ h ∈ handlers, h.connection.any torn = true := by
        intro after
        refine Classical.byContradiction fun spared => before fun h hh => ?_
        have kept : h.connection.any torn = false := by
          simpa using fun torn => spared ⟨h, hh, torn⟩
        exact h.detachFrom_of_not_torn kept ▸ after h hh
      simp only [if_neg before, List.any_eq_true, List.mem_map, forall_exists_index, and_imp,
        forall_apply_eq_imp_iff₂]
      by_cases after : ∀ h ∈ handlers, (h.detachFrom torn).connection = none
      · rw [if_pos ⟨torn_of after, after⟩, if_pos after]
      · rw [if_neg after, if_neg fun both => after both.2]
  · have same : ∀ h ∈ m.handlers, h.connection.any (fun i => decide (i = id) || torn i) =
        h.connection.any torn := by
      intro h hh
      cases hc : h.connection with
      | none => rfl
      | some i =>
        have other : i ≠ id := by
          rintro rfl
          exact hid (List.any_eq_true.mpr ⟨h, hh, by simp [hc]⟩)
        simp [other]
    rw [Message.detachAll, if_neg hid, Message.detachFrom_congr same]

theorem Message.detachFrom_nothing (m : Message) : m.detachFrom (fun _ => false) = m := by
  have same : m.handlers.map (Handler.detachFrom fun _ => false) = m.handlers :=
    List.map_id'' (fun h => h.detachFrom_of_not_torn (by simp)) _
  simp [Message.detachFrom, same]

namespace ModuleContext

/-- The open connections of handlers, each with the intent of its handler. -/
def reached (x : ModuleContext) (hs : List Handler) : List (ConnectionId × Int32) :=
  hs.filterMap fun h => (x.liveConnection h).map (·, h.intent)

/-- All destinations, but of those on one broken connection the first alone. -/
def attemptsTo (broken : ConnectionId → Bool) :
    List (ConnectionId × Int32) → List (ConnectionId × Int32)
  | [] => []
  | d :: ds => d :: (attemptsTo broken ds).filter fun e => !(broken d.1 && e.1 = d.1)

/-- The envelopes for the destinations on one connection: they differ in their intent alone. -/
def envelopesFor (m : Envelope) (id : ConnectionId) (ds : List (ConnectionId × Int32)) :
    List Envelope :=
  (ds.filter (·.1 = id)).map fun d => m.withIntent d.2

/-- A broken connection among the destinations. -/
def breaks (broken : ConnectionId → Bool) (ds : List (ConnectionId × Int32)) (id : ConnectionId) :
    Bool :=
  broken id && ds.any (·.1 = id)

section Destinations

variable {x y z : ModuleContext} {m : Envelope} {h : Handler} {hs : List Handler}
variable {id other : ConnectionId} {d : ConnectionId × Int32} {ds : List (ConnectionId × Int32)}
variable {broken : ConnectionId → Bool}

theorem reached_cons_none (hl : x.liveConnection h = none) : x.reached (h :: hs) = x.reached hs := by
  simp [reached, hl]

theorem reached_cons_some (hl : x.liveConnection h = some id) (hs : List Handler) :
    x.reached (h :: hs) = (id, h.intent) :: x.reached hs := by
  simp [reached, hl]

theorem reached_congr (same : ∀ i, y.isOpen i = x.isOpen i) (hs : List Handler) :
    y.reached hs = x.reached hs := by
  have open_ : y.isOpen = x.isOpen := funext same
  simp only [reached, liveConnection, open_]

theorem reached_of_closed (closed : ∀ i, z.isOpen i = (decide (i ≠ id) && x.isOpen i))
    (hs : List Handler) : z.reached hs = (x.reached hs).filter fun e => e.1 ≠ id := by
  induction hs with
  | nil => rfl
  | cons h hs ih =>
    cases hl : x.liveConnection h with
    | none =>
      have gone : z.liveConnection h = none := by
        simp only [liveConnection, Option.filter_eq_none_iff] at hl ⊢
        intro i hi
        rw [closed, Bool.and_eq_true]
        exact fun both => hl i hi both.2
      rw [reached_cons_none hl, reached_cons_none gone, ih]
    | some i =>
      obtain ⟨hc, ho⟩ := Option.filter_eq_some_iff.mp hl
      rw [reached_cons_some hl, List.filter_cons]
      by_cases hi : i = id
      · have gone : z.liveConnection h = none := by
          simp [liveConnection, hc, closed, hi]
        rw [reached_cons_none gone, ih]
        simp [hi]
      · have still : z.liveConnection h = some i := by
          simp [liveConnection, hc, closed, hi, ho]
        rw [reached_cons_some still, ih]
        simp [hi]

theorem mem_reached {e : ConnectionId × Int32} (he : e ∈ x.reached hs) :
    ∃ h ∈ hs, x.liveConnection h = some e.1 := by
  obtain ⟨h, hh, live⟩ := List.mem_filterMap.mp he
  obtain ⟨i, hi, rfl⟩ := Option.map_eq_some_iff.mp live
  exact ⟨h, hh, hi⟩

theorem attemptsTo_filter (broken : ConnectionId → Bool) (p : ConnectionId → Bool)
    (ds : List (ConnectionId × Int32)) :
    attemptsTo broken (ds.filter fun e => p e.1) = (attemptsTo broken ds).filter fun e => p e.1 := by
  induction ds with
  | nil => rfl
  | cons d ds ih =>
    rw [List.filter_cons]
    simp only [attemptsTo]
    split
    · rename_i hp
      rw [attemptsTo, ih, List.filter_cons, if_pos hp, List.filter_filter, List.filter_filter]
      simp only [Bool.and_comm]
    · rename_i hp
      rw [ih, List.filter_cons, if_neg hp, List.filter_filter]
      refine List.filter_congr fun e _ => ?_
      by_cases he : e.1 = d.1
      · simp [he, hp]
      · simp [he]

theorem envelopesFor_cons (m : Envelope) (id : ConnectionId) (d : ConnectionId × Int32)
    (ds : List (ConnectionId × Int32)) :
    envelopesFor m id (d :: ds) =
      if d.1 = id then m.withIntent d.2 :: envelopesFor m id ds else envelopesFor m id ds := by
  simp only [envelopesFor, List.filter_cons, decide_eq_true_eq]
  split <;> rfl

theorem envelopesFor_filter_self (m : Envelope) (id : ConnectionId)
    (ds : List (ConnectionId × Int32)) :
    envelopesFor m id (ds.filter fun e => e.1 ≠ id) = [] := by
  simp [envelopesFor, List.filter_filter]

theorem envelopesFor_filter_ne (m : Envelope) (ne : other ≠ id) (ds : List (ConnectionId × Int32)) :
    envelopesFor m other (ds.filter fun e => e.1 ≠ id) = envelopesFor m other ds := by
  simp only [envelopesFor, List.filter_filter]
  congr 1
  refine List.filter_congr fun e _ => ?_
  by_cases he : e.1 = other
  · simp [he, ne]
  · simp [he]

theorem attemptsTo_filter_ne (broken : ConnectionId → Bool) (id : ConnectionId)
    (ds : List (ConnectionId × Int32)) :
    attemptsTo broken (ds.filter fun e => e.1 ≠ id) =
      (attemptsTo broken ds).filter fun e => e.1 ≠ id :=
  attemptsTo_filter broken (fun i => decide (i ≠ id)) ds

theorem breaks_filter_self (broken : ConnectionId → Bool) (id : ConnectionId)
    (ds : List (ConnectionId × Int32)) : breaks broken (ds.filter fun e => e.1 ≠ id) id = false := by
  simp [breaks]

theorem attemptsTo_cons_works (works : broken d.1 = false) :
    attemptsTo broken (d :: ds) = d :: attemptsTo broken ds := by
  simp [attemptsTo, works]

theorem attemptsTo_cons_broken (fails : broken d.1 = true) :
    attemptsTo broken (d :: ds) = d :: attemptsTo broken (ds.filter fun e => e.1 ≠ d.1) := by
  rw [attemptsTo_filter_ne]
  simp [attemptsTo, fails]

theorem breaks_cons_works (works : broken d.1 = false) :
    breaks broken (d :: ds) = breaks broken ds := by
  funext i
  simp only [breaks, List.any_cons]
  by_cases hi : d.1 = i
  · simp [← hi, works]
  · simp [hi]

theorem breaks_cons_broken (fails : broken d.1 = true) (i : ConnectionId) :
    breaks broken (d :: ds) i =
      (decide (i = d.1) || breaks broken (ds.filter fun e => e.1 ≠ d.1) i) := by
  simp only [breaks, List.any_cons, List.any_filter]
  by_cases hi : i = d.1
  · simp [hi, fails]
  · have here : ∀ e : ConnectionId × Int32,
        (!decide (e.1 = d.1) && decide (e.1 = i)) = decide (e.1 = i) := by
      intro e
      by_cases he : e.1 = i
      · simp [he, hi]
      · simp [he]
    simp [here, hi, Ne.symm hi]

/-- A connection gets all its envelopes if it works, and the first one if it is broken. -/
theorem envelopesFor_attemptsTo (broken : ConnectionId → Bool) (m : Envelope) (id : ConnectionId)
    (ds : List (ConnectionId × Int32)) :
    envelopesFor m id (attemptsTo broken ds) =
      if broken id then (envelopesFor m id ds).take 1 else envelopesFor m id ds := by
  induction ds with
  | nil => simp [attemptsTo, envelopesFor]
  | cons d ds ih =>
    rw [envelopesFor_cons]
    by_cases hd : d.1 = id
    · subst hd
      cases hb : broken d.1 with
      | false =>
        rw [attemptsTo_cons_works hb, envelopesFor_cons, ih]
        simp [hb]
      | true =>
        rw [attemptsTo_cons_broken hb, attemptsTo_filter_ne, envelopesFor_cons,
          envelopesFor_filter_self]
        simp
    · rw [if_neg hd, ← ih]
      cases hb : broken d.1 with
      | false => rw [attemptsTo_cons_works hb, envelopesFor_cons, if_neg hd]
      | true =>
        rw [attemptsTo_cons_broken hb, attemptsTo_filter_ne, envelopesFor_cons, if_neg hd,
          envelopesFor_filter_ne m (Ne.symm hd)]

end Destinations

end ModuleContext

end ModuleLink
