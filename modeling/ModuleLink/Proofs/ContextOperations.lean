import Mathlib.Tactic.Common
import ModuleLink.Proofs.DeliverySteps

/-! # Which connections the handlers of a message are on

A module registers messages, takes in and closes connections, and sends. A handler is on an open
connection of the table, or is stranded: its connection was closed with the loss of the router, its
replacement, or a shutdown, and these detach no handler; or it was closed when it was taken in. -/
namespace ModuleLink

inductive Operation
  | register (m : Message)
  | addHandler (name : String) (id : ConnectionId) (intent : Int32)
  /-- A connection comes about that the module does not look after. -/
  | opens (c : Connection)
  | attachRouter (id : ConnectionId)
  | addConnection (id : ConnectionId)
  | handleClosed (id : ConnectionId)
  | shutdown
  | send (q : SendRequest)
  /-- The other end reads, writes or leaves, and the connection is this one afterwards. -/
  | otherEnd (id : ConnectionId) (c : Connection)

namespace ModuleContext

def perform (x : ModuleContext) : Operation → ModuleContext
  | .register m => x.registerMessage m
  | .addHandler name id intent => ((addDirectHandler name ⟨some id, intent⟩).run x).2
  | .opens c => (x.openConnection c).2
  | .attachRouter id => x.attachRouter id
  | .addConnection id => x.addConnection id
  | .handleClosed id => (x.handleClosed id).2
  | .shutdown => x.shutdown
  | .send q => ((sendMessage q).run x).2
  | .otherEnd id c => x.setConnection id c

/-- Messages come without handlers, handlers are on connections of the table, and only the module
closes connections. -/
def Allowed (x : ModuleContext) : Operation → Prop
  | .register m => m.handlers = []
  | .addHandler _ id _ => id ∈ x.table
  | .attachRouter id | .addConnection id => (x.connection? id).isSome
  | .otherEnd id c => c.isOpen = x.isOpen id
  | _ => True

instance (x : ModuleContext) : (op : Operation) → Decidable (x.Allowed op)
  | .register m => inferInstanceAs (Decidable (m.handlers = []))
  | .addHandler _ id _ => inferInstanceAs (Decidable (id ∈ x.table))
  | .attachRouter id | .addConnection id =>
    inferInstanceAs (Decidable ((x.connection? id).isSome = true))
  | .otherEnd id c => inferInstanceAs (Decidable (c.isOpen = x.isOpen id))
  | .opens _ | .handleClosed _ | .shutdown | .send _ => .isTrue trivial

def Loses (x y : ModuleContext) (id : ConnectionId) : Prop :=
  x.router = some id ∧ y.router ≠ some id

/-- Connections that an operation closes without detaching their handlers, or takes in closed. -/
def Strands (x : ModuleContext) : Operation → ConnectionId → Prop
  | .attachRouter taken, id => x.router = some id ∨ (id = taken ∧ x.isOpen id = false)
  | .addConnection taken, id => id = taken ∧ x.isOpen id = false
  | .shutdown, id => id ∈ x.table
  | op, id => x.Loses (x.perform op) id

def performAll (x : ModuleContext) (ops : List Operation) : ModuleContext := ops.foldl perform x

def AllowedAll (x : ModuleContext) : List Operation → Prop
  | [] => True
  | op :: ops => x.Allowed op ∧ (x.perform op).AllowedAll ops

instance decidableAllowedAll (x : ModuleContext) : ∀ ops, Decidable (x.AllowedAll ops)
  | [] => .isTrue trivial
  | op :: ops =>
    have := decidableAllowedAll (x.perform op) ops
    inferInstanceAs (Decidable (x.Allowed op ∧ (x.perform op).AllowedAll ops))

def StrandsAll (x : ModuleContext) : List Operation → ConnectionId → Prop
  | [], _ => False
  | op :: ops, id => x.Strands op id ∨ (x.perform op).StrandsAll ops id

structure Bare (x : ModuleContext) : Prop where
  table : x.table = []
  router : x.router = none
  messages : ∀ m ∈ x.messages, m.handlers = []

structure Standing (x : ModuleContext) (stranded : ConnectionId → Prop) : Prop where
  live : ∀ id ∈ x.table, x.isOpen id = true ∨ stranded id
  listed : ∀ id, x.router = some id → id ∈ x.table ∨ stranded id
  dead : ∀ id, stranded id → (x.connection? id).isSome = true ∧ x.isOpen id = false
  handlers : ∀ m ∈ x.messages, ∀ h ∈ m.handlers, ∀ id, h.connection = some id →
    id ∈ x.table ∨ stranded id
  attached : ∀ m ∈ x.messages, m.handlers ≠ [] → ∃ h ∈ m.handlers, h.connection ≠ none

variable {x y z : ModuleContext} {stranded : ConnectionId → Prop}

theorem Bare.standing (h : x.Bare) : x.Standing fun _ => False := by
  refine ⟨?_, ?_, nofun, ?_, ?_⟩
  · rw [h.table]
    exact nofun
  · rw [h.router]
    exact nofun
  · intro m hm handler hh
    rw [h.messages m hm] at hh
    cases hh
  · intro m hm some
    exact absurd (h.messages m hm) some

theorem Standing.congr {stranded' : ConnectionId → Prop} (h : x.Standing stranded)
    (same : ∀ id, stranded id ↔ stranded' id) : x.Standing stranded' := by
  obtain rfl : stranded = stranded' := funext fun id => propext (same id)
  exact h

theorem Standing.known (h : x.Standing stranded) {id : ConnectionId}
    (hid : id ∈ x.table ∨ stranded id) : (x.connection? id).isSome = true := by
  rcases hid with tabled | dead
  · rcases h.live id tabled with live | dead
    · exact isSome_of_isOpen live
    · exact (h.dead id dead).1
  · exact (h.dead id dead).1

theorem Standing.keeps (h : y.Standing stranded) (same : y.router = x.router) :
    y.Standing fun i => stranded i ∨ x.Loses y i :=
  h.congr fun _ => ⟨.inl, fun e => e.resolve_right fun lost => lost.2 (same.trans lost.1)⟩

/-- Connections may change as long as they stay as open as they are. -/
theorem Standing.of_connections (h : x.Standing stranded) (table : y.table = x.table)
    (router : y.router = x.router) (messages : y.messages = x.messages)
    (kept : ∀ id, (x.connection? id).isSome = true → (y.connection? id).isSome = true)
    (same : ∀ id, (x.connection? id).isSome = true → y.isOpen id = x.isOpen id) :
    y.Standing stranded := by
  refine ⟨?_, ?_, ?_, ?_, ?_⟩
  · intro id hid
    rw [same id (h.known (.inl (table ▸ hid)))]
    exact h.live id (table ▸ hid)
  · intro id hid
    rw [table]
    exact h.listed id (router ▸ hid)
  · intro id hid
    obtain ⟨known, closed⟩ := h.dead id hid
    exact ⟨kept id known, (same id known).trans closed⟩
  · rw [messages, table]
    exact h.handlers
  · rw [messages]
    exact h.attached

theorem Standing.setConnection (h : x.Standing stranded) {id : ConnectionId} {d : Connection}
    (hd : d.isOpen = x.isOpen id) : (x.setConnection id d).Standing stranded := by
  refine h.of_connections rfl rfl rfl (fun other known => ?_) fun other known => ?_
  · rwa [isSome_setConnection]
  · simp only [isOpen]
    rw [connection?_setConnection]
    by_cases ho : other = id
    · subst ho
      obtain ⟨c, hc⟩ := Option.isSome_iff_exists.mp known
      rw [if_pos rfl, hc]
      simpa [isOpen, hc] using hd
    · rw [if_neg ho]

theorem connection?_openConnection (x : ModuleContext) (c : Connection) (id : ConnectionId) :
    (x.openConnection c).2.connection? id =
      if id = x.connections.length then some c else x.connection? id := by
  show (x.connections ++ [c])[id]? =
    if id = x.connections.length then some c else x.connections[id]?
  by_cases h : id = x.connections.length
  · simp [h]
  · rw [if_neg h]
    rcases Nat.lt_or_ge id x.connections.length with hl | hl
    · rw [List.getElem?_append_left hl]
    · have beyond : (x.connections ++ [c]).length ≤ id := by
        rw [List.length_append]
        exact Nat.lt_of_le_of_ne hl (Ne.symm h)
      rw [List.getElem?_eq_none hl, List.getElem?_eq_none beyond]

theorem ne_length_of_isSome {id : ConnectionId} (h : (x.connection? id).isSome = true) :
    id ≠ x.connections.length := by
  rintro rfl
  simp [connection?] at h

theorem Standing.openConnection (h : x.Standing stranded) (c : Connection) :
    (x.openConnection c).2.Standing stranded := by
  refine h.of_connections rfl rfl rfl (fun id known => ?_) fun id known => ?_
  · rw [connection?_openConnection, if_neg (ne_length_of_isSome known)]
    exact known
  · simp only [isOpen]
    rw [connection?_openConnection, if_neg (ne_length_of_isSome known)]

theorem Standing.addConnection (h : x.Standing stranded) {id : ConnectionId}
    (known : (x.connection? id).isSome = true) :
    (x.addConnection id).Standing fun i => stranded i ∨ (i = id ∧ x.isOpen i = false) := by
  have wider : ∀ other, other ∈ x.table → other ∈ (x.addConnection id).table := by
    intro other hm
    by_cases he : other = id
    · simp [ModuleContext.addConnection, he]
    · simp [ModuleContext.addConnection, he, hm]
  refine ⟨?_, ?_, ?_, ?_, h.attached⟩
  · intro other hm
    rcases List.mem_cons.mp hm with rfl | hm
    · by_cases ho : x.isOpen other = true
      · exact .inl ho
      · exact .inr (.inr ⟨rfl, Bool.eq_false_iff.mpr ho⟩)
    · exact (h.live other (List.mem_filter.mp hm).1).imp_right .inl
  · exact fun other hr => (h.listed other hr).imp (wider other) .inl
  · rintro other (dead | ⟨rfl, closed⟩)
    · exact h.dead other dead
    · exact ⟨known, closed⟩
  · intro m hm handler hh other hc
    exact (h.handlers m hm handler hh other hc).imp (wider other) .inl

/-- Connections leave the table and are closed, and their handlers stay on them. -/
theorem Standing.closing (h : x.Standing stranded) (closed : ConnectionId → Prop)
    (table : ∀ i, i ∈ y.table ↔ i ∈ x.table ∧ ¬ closed i)
    (opened : ∀ i, y.isOpen i = true ↔ x.isOpen i = true ∧ ¬ closed i)
    (same : ∀ i, (y.connection? i).isSome = (x.connection? i).isSome)
    (messages : y.messages = x.messages)
    (routed : ∀ i, y.router = some i → i ∈ x.table ∨ stranded i)
    (known : ∀ i, closed i → (x.connection? i).isSome = true) :
    y.Standing fun i => stranded i ∨ closed i := by
  have tabled : ∀ i, i ∈ x.table ∨ stranded i → i ∈ y.table ∨ stranded i ∨ closed i := by
    rintro i (listed | dead)
    · by_cases hc : closed i
      · exact .inr (.inr hc)
      · exact .inl ((table i).mpr ⟨listed, hc⟩)
    · exact .inr (.inl dead)
  refine ⟨?_, fun i hi => tabled i (routed i hi), ?_, ?_, ?_⟩
  · intro i hi
    obtain ⟨hi, spared⟩ := (table i).mp hi
    exact (h.live i hi).imp (fun live => (opened i).mpr ⟨live, spared⟩) .inl
  · intro i dead
    have shut : ¬ y.isOpen i = true := by
      intro live
      obtain ⟨before, spared⟩ := (opened i).mp live
      rcases dead with dead | hc
      · exact absurd (before.symm.trans (h.dead i dead).2) nofun
      · exact spared hc
    refine ⟨?_, by simpa using shut⟩
    rw [same]
    exact dead.elim (fun dead => (h.dead i dead).1) (known i)
  · rw [messages]
    exact fun m hm handler hh i hc => tabled i (h.handlers m hm handler hh i hc)
  · rw [messages]
    exact h.attached

/-- A new router connection strands the handlers on the old one. -/
theorem Standing.attachRouter (h : x.Standing stranded) {id : ConnectionId}
    (known : (x.connection? id).isSome = true) :
    (x.attachRouter id).Standing
      fun i => stranded i ∨ (x.router = some i ∨ (i = id ∧ x.isOpen i = false)) := by
  have added := h.addConnection known
  have listed : id ∈ (x.addConnection id).table := List.mem_cons_self ..
  simp only [ModuleContext.attachRouter]
  cases hr : x.router with
  | none =>
    refine ModuleContext.Standing.congr ⟨added.live, ?_, added.dead, added.handlers, added.attached⟩
      fun i => or_congr_right ⟨.inr, fun e => e.resolve_left nofun⟩
    intro other hother
    exact .inl (Option.some.inj hother ▸ listed)
  | some old =>
    dsimp only
    refine (added.closing (· = old) ?_ ?_ ?_ ?_ ?_ ?_).congr fun i => ?_
    · intro i
      rw [table_invalidate]
      simp [List.mem_filter]
    · intro i
      rw [isOpen_invalidate, Bool.and_eq_true, decide_eq_true_iff]
      exact and_comm
    · exact fun i => isSome_invalidate _ old i
    · rw [messages_invalidate]
    · intro i hi
      rw [router_invalidate] at hi
      exact .inl (Option.some.inj hi ▸ listed)
    · rintro i rfl
      exact h.known (h.listed i hr)
    · rw [or_assoc, Option.some.injEq, eq_comm (a := old), or_comm (b := i = old)]

/-- Detaching takes the handlers on a connection off it, and leaves the others. -/
theorem connection_of_mem_detachAll {m : Message} {id other : ConnectionId} {handler : Handler}
    (hm : handler ∈ (m.detachAll id).handlers) (hc : handler.connection = some other) :
    other ≠ id ∧ ∃ h ∈ m.handlers, h.connection = some other := by
  obtain ⟨hh, hne⟩ := (Message.mem_detachAll_iff hc).mp hm
  exact ⟨hne, handler, hh, hc⟩

/-- Once every handler is detached the list of handlers is gone. -/
theorem attached_detachAll {m : Message} (id : ConnectionId)
    (h : m.handlers ≠ [] → ∃ handler ∈ m.handlers, handler.connection ≠ none) :
    (m.detachAll id).handlers ≠ [] →
      ∃ handler ∈ (m.detachAll id).handlers, handler.connection ≠ none := by
  simp only [Message.detachAll]
  split
  · dsimp only
    split
    · exact fun some => absurd rfl some
    · rename_i notAll
      intro _
      simpa using notAll
  · exact h

private theorem Standing.closeRouter (h : x.Standing stranded) {id : ConnectionId}
    (hid : id ∈ x.table) (hr : x.router = some id) :
    (x.handleClosed id).2.Standing fun i => stranded i ∨ i = id := by
  refine h.closing (· = id) (fun i => mem_table_handleClosed x id) ?_ ?_ ?_ ?_ ?_
  · intro i
    rw [isOpen_handleClosed x id hid, Bool.and_eq_true, decide_eq_true_iff]
    exact and_comm
  · exact fun i => isSome_handleClosed x id i
  · rw [messages_handleClosed x id hid, if_pos hr]
  · rw [router_handleClosed x id hid, if_pos hr]
    exact nofun
  · rintro i rfl
    exact h.known (.inl hid)

private theorem Standing.closePeer (h : x.Standing stranded) {id : ConnectionId}
    (hid : id ∈ x.table) (hr : x.router ≠ some id) : (x.handleClosed id).2.Standing stranded := by
  have opened := isOpen_handleClosed x id hid
  have messages : (x.handleClosed id).2.messages = x.messages.map (·.detachAll id) := by
    rw [messages_handleClosed x id hid, if_neg hr]
  have tabled : ∀ i, i ≠ id → i ∈ x.table → i ∈ (x.handleClosed id).2.table :=
    fun i hne hi => (mem_table_handleClosed x id).mpr ⟨hi, hne⟩
  refine ⟨?_, ?_, ?_, ?_, ?_⟩
  · intro i hi
    obtain ⟨hi, hne⟩ := (mem_table_handleClosed x id).mp hi
    rw [opened, decide_eq_true hne, Bool.true_and]
    exact h.live i hi
  · rw [router_handleClosed x id hid, if_neg hr]
    intro i hi
    have hne : i ≠ id := fun e => hr (e ▸ hi)
    exact (h.listed i hi).imp_left (tabled i hne)
  · intro i dead
    rw [isSome_handleClosed, opened, (h.dead i dead).2, Bool.and_false]
    exact ⟨(h.dead i dead).1, rfl⟩
  · rw [messages]
    intro m hm handler hh i hc
    obtain ⟨n, hn, rfl⟩ := List.mem_map.mp hm
    obtain ⟨hne, handler', hh', hc'⟩ := connection_of_mem_detachAll hh hc
    exact (h.handlers n hn handler' hh' i hc').imp_left (tabled i hne)
  · rw [messages]
    intro m hm
    obtain ⟨n, hn, rfl⟩ := List.mem_map.mp hm
    exact attached_detachAll id (h.attached n hn)

theorem Standing.handleClosed (h : x.Standing stranded) (id : ConnectionId) :
    (x.handleClosed id).2.Standing (fun i => stranded i ∨ x.Loses (x.handleClosed id).2 i) := by
  by_cases hid : id ∈ x.table
  · have router := router_handleClosed x id hid
    by_cases hr : x.router = some id
    · rw [if_pos hr] at router
      refine (h.closeRouter hid hr).congr fun i => or_congr_right ?_
      simp only [Loses, router, hr]
      constructor
      · rintro rfl
        exact ⟨rfl, nofun⟩
      · exact fun lost => (Option.some.inj lost.1).symm
    · rw [if_neg hr] at router
      exact (h.closePeer hid hr).keeps router
  · rw [handleClosed_of_not_mem hid]
    exact h.keeps rfl

theorem Standing.shutdown (h : x.Standing stranded) :
    x.shutdown.Standing (fun i => stranded i ∨ i ∈ x.table) := by
  have opened : ∀ i, x.shutdown.isOpen i = (decide (i ∉ x.table) && x.isOpen i) :=
    isOpen_foldl_invalidate x.table x
  have messages : x.shutdown.messages = x.messages := messages_foldl_invalidate x.table x
  refine h.closing (· ∈ x.table) ?_ ?_ (isSome_foldl_invalidate x.table x) messages nofun ?_
  · exact fun i => ⟨nofun, fun listed => absurd listed.1 listed.2⟩
  · intro i
    rw [opened, Bool.and_eq_true, decide_eq_true_iff]
    exact and_comm
  · exact fun i listed => h.known (.inl listed)

theorem Standing.registerMessage (h : x.Standing stranded) {m : Message} (hm : m.handlers = []) :
    (x.registerMessage m).Standing stranded := by
  have cases : ∀ n ∈ (x.registerMessage m).messages, n ∈ x.messages ∨ n.handlers = [] := by
    intro n hn
    rcases List.mem_append.mp hn with hn | hn
    · exact .inl (List.mem_filter.mp hn).1
    · exact .inr (List.mem_singleton.mp hn ▸ hm)
  refine ⟨h.live, h.listed, h.dead, ?_, ?_⟩
  · intro n hn handler hh
    rcases cases n hn with old | none
    · exact h.handlers n old handler hh
    · rw [none] at hh
      cases hh
  · intro n hn some
    rcases cases n hn with old | none
    · exact h.attached n old some
    · exact absurd none some

theorem run_addDirectHandler (name : String) (handler : Handler) (x : ModuleContext) :
    ((addDirectHandler name handler).run x).2 = x ∨
      ((addDirectHandler name handler).run x).2 =
        { x with messages := x.messages.update name (·.addHandler handler) } := by
  simp only [addDirectHandler]
  rw [run_bind, run_requireMessage]
  cases x.message? name with
  | none => exact .inl rfl
  | some m => exact .inr rfl

theorem Standing.addHandler (h : x.Standing stranded) (name : String) {id : ConnectionId}
    (intent : Int32) (hid : id ∈ x.table) :
    ((addDirectHandler name ⟨some id, intent⟩).run x).2.Standing stranded := by
  rcases run_addDirectHandler name ⟨some id, intent⟩ x with same | more
  · rwa [same]
  · rw [more]
    refine ⟨h.live, h.listed, h.dead, ?_, ?_⟩
    · intro m hm handler hh i hc
      obtain ⟨n, hn, rfl⟩ := List.mem_map.mp hm
      split at hh
      · rcases List.mem_append.mp hh with hh | hh
        · exact h.handlers n hn handler hh i hc
        · obtain rfl := List.mem_singleton.mp hh
          exact .inl (Option.some.inj hc ▸ hid)
      · exact h.handlers n hn handler hh i hc
    · intro m hm some
      obtain ⟨n, hn, rfl⟩ := List.mem_map.mp hm
      by_cases named : n.name = name
      · simp only [named, if_true]
        exact ⟨_, List.mem_append_right _ (List.mem_cons_self ..), nofun⟩
      · simp only [named, if_false] at some ⊢
        exact h.attached n hn some

theorem router_run_sendOn (id : ConnectionId) (m : Envelope) (x : ModuleContext) :
    ((sendOn id m).run x).2.router = x.router := by
  rw [run_sendOn]
  cases x.connection? id <;> rfl

theorem Standing.sendOn (h : x.Standing stranded) (id : ConnectionId) (m : Envelope) :
    ((sendOn id m).run x).2.Standing stranded := by
  rw [run_sendOn]
  cases hc : x.connection? id with
  | none => exact h
  | some c =>
    refine h.setConnection ?_
    rw [c.send_eq m]
    simp [isOpen, hc]

theorem loses_trans (hy : ∀ i, y.router = some i → x.router = some i)
    (hz : ∀ i, z.router = some i → y.router = some i) (i : ConnectionId) :
    x.Loses y i ∨ y.Loses z i ↔ x.Loses z i := by
  constructor
  · rintro (⟨had, gone⟩ | ⟨had, gone⟩)
    · exact ⟨had, fun e => gone (hz i e)⟩
    · exact ⟨hy i had, gone⟩
  · rintro ⟨had, gone⟩
    by_cases still : y.router = some i
    · exact .inr ⟨still, gone⟩
    · exact .inl ⟨had, still⟩

/-- A delivery may tear connections down, and lose the router with one of them. -/
theorem Standing.deliver (h : x.Standing stranded) (m : Envelope) (hs : List Handler) :
    ((deliver m hs).forget.run x).2.Standing
        (fun i => stranded i ∨ x.Loses ((deliver m hs).forget.run x).2 i) ∧
      ∀ i, ((deliver m hs).forget.run x).2.router = some i → x.router = some i := by
  induction hs generalizing x stranded with
  | nil =>
    rw [deliver_nil]
    exact ⟨h.keeps rfl, fun _ => id⟩
  | cons handler hs ih =>
    rw [deliver_cons]
    cases hl : x.liveConnection handler with
    | none => exact ih h
    | some id =>
      dsimp only
      have sent := h.sendOn id (m.withIntent handler.intent)
      have router := router_run_sendOn id (m.withIntent handler.intent) x
      generalize (ModuleContext.sendOn id (m.withIntent handler.intent)).run x = out
        at sent router ⊢
      obtain ⟨e | _, y⟩ := out
      · have torn := sent.handleClosed id
        have fewer : ∀ i, (y.handleClosed id).2.router = some i → x.router = some i :=
          fun i hi => router ▸ router_of_handleClosed y id hi
        have loses : ∀ i, y.Loses (y.handleClosed id).2 i ↔ x.Loses (y.handleClosed id).2 i := by
          intro i
          simp only [Loses]
          rw [router]
        have torn' := torn.congr fun i => or_congr_right (loses i)
        dsimp only
        split
        · obtain ⟨delivered, fewer'⟩ := ih torn'
          refine ⟨delivered.congr fun i => ?_, fun i hi => fewer i (fewer' i hi)⟩
          -- The router is lost at most once on the way: no handler brings one back.
          rw [or_assoc, loses_trans fewer fewer']
        · dsimp only
          split
          · exact ⟨torn', fewer⟩
          · exact ⟨sent.keeps router, fun i hi => router ▸ hi⟩
      · obtain ⟨delivered, fewer⟩ := ih sent
        refine ⟨delivered.congr fun i => or_congr_right ?_, fun i hi => router ▸ fewer i hi⟩
        simp only [Loses]
        rw [router]

theorem Standing.send (h : x.Standing stranded) (q : SendRequest) :
    ((sendMessage q).run x).2.Standing
      (fun i => stranded i ∨ x.Loses ((sendMessage q).run x).2 i) := by
  rw [run_sendMessage]
  obtain ⟨next, hn⟩ := prepareMessage_prepares q x
  generalize (prepareMessage q).run x = prepared at hn ⊢
  obtain ⟨e | out, y⟩ := prepared
  all_goals
    obtain rfl : y = { x with nextSendRef := next } := hn
    have ready : ModuleContext.Standing { x with nextSendRef := next } stranded :=
      ⟨h.live, h.listed, h.dead, h.handlers, h.attached⟩
  · exact ready.keeps rfl
  · dsimp only
    by_cases hd : out.message.deliversDirectly = true
    · rw [if_pos hd]
      have delivered := (ready.deliver out.envelope out.message.handlers.reverse).1
      generalize (ModuleContext.deliver out.envelope out.message.handlers.reverse).forget.run _ = sent
        at delivered ⊢
      obtain ⟨_ | _, z⟩ := sent <;> exact delivered
    · rw [if_neg hd]
      have sent := ready.sendOn out.router (out.envelope.withIntent out.message.id)
      have router := router_run_sendOn out.router (out.envelope.withIntent out.message.id)
        { x with nextSendRef := next }
      generalize (ModuleContext.sendOn out.router _).run _ = result at sent router ⊢
      obtain ⟨_ | _, z⟩ := result <;> exact sent.keeps router

/-- What an allowed operation does to the connections of handlers. -/
theorem Standing.perform (h : x.Standing stranded) {op : Operation} (allowed : x.Allowed op) :
    (x.perform op).Standing fun i => stranded i ∨ x.Strands op i := by
  cases op with
  | register m => exact (h.registerMessage allowed).keeps rfl
  | addHandler name id intent =>
    refine (h.addHandler name intent allowed).keeps ?_
    rcases run_addDirectHandler name ⟨some id, intent⟩ x with same | more
    · exact congrArg ModuleContext.router same
    · exact (congrArg ModuleContext.router more).trans rfl
  | opens c => exact (h.openConnection c).keeps rfl
  | attachRouter id => exact h.attachRouter allowed
  | addConnection id => exact h.addConnection allowed
  | handleClosed id => exact h.handleClosed id
  | shutdown => exact h.shutdown
  | send q => exact h.send q
  | otherEnd id c => exact (h.setConnection allowed).keeps rfl

theorem Standing.performAll (h : x.Standing stranded) {ops : List Operation}
    (allowed : x.AllowedAll ops) :
    (x.performAll ops).Standing fun i => stranded i ∨ x.StrandsAll ops i := by
  induction ops generalizing x stranded with
  | nil => exact h.congr fun i => ⟨.inl, fun e => e.resolve_right id⟩
  | cons op ops ih =>
    refine (ih (h.perform allowed.1) allowed.2).congr fun i => ?_
    rw [StrandsAll, or_assoc]

end ModuleContext

end ModuleLink
