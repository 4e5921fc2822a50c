import ModuleLink.ModuleContext

/-! # What the operations on a module do to its connections

A connection that is torn down leaves the table and its handlers, and is closed; nothing else happens
to any connection, and the two queues of envelopes stay as they are. -/
namespace ModuleLink

theorem Handler.connection_detach {h : Handler} {id i : ConnectionId} :
    (h.detach id).connection = some i ↔ h.connection = some i ∧ i ≠ id := by
  by_cases hid : h.connection = some id
  · simp [Handler.detach, hid, eq_comm]
  · simp only [Handler.detach, if_neg hid, iff_self_and]
    rintro hi rfl
    exact hid hi

/-- Detaching leaves the handlers on the other connections, and no handler on its own. -/
theorem Message.mem_detachAll_iff {m : Message} {id i : ConnectionId} {h : Handler}
    (hc : h.connection = some i) : h ∈ (m.detachAll id).handlers ↔ h ∈ m.handlers ∧ i ≠ id := by
  have mapped : h ∈ m.handlers.map (Handler.detach id) ↔ h ∈ m.handlers ∧ i ≠ id := by
    constructor
    · intro hm
      obtain ⟨h', hh', rfl⟩ := List.mem_map.mp hm
      obtain ⟨hc', hi⟩ := Handler.connection_detach.mp hc
      have same : h'.detach id = h' := if_neg fun e => hi (Option.some.inj (hc'.symm.trans e))
      exact ⟨same.symm ▸ hh', hi⟩
    · rintro ⟨hh, hi⟩
      exact List.mem_map.mpr ⟨h, hh, if_neg fun e => hi (Option.some.inj (hc.symm.trans e))⟩
  unfold Message.detachAll
  split
  · dsimp only
    split
    · rename_i emptied
      rw [← mapped]
      refine ⟨nofun, fun hh => ?_⟩
      have none := of_decide_eq_true (List.all_eq_true.mp emptied h hh)
      cases hc.symm.trans none
    · exact mapped
  · rename_i none
    refine ⟨fun hh => ⟨hh, ?_⟩, fun both => both.1⟩
    rintro rfl
    exact none (List.any_eq_true.mpr ⟨h, hh, by simp [hc]⟩)

namespace ModuleContext

theorem connection?_setConnection (x : ModuleContext) (id other : ConnectionId) (d : Connection) :
    (x.setConnection id d).connection? other =
      if other = id then (x.connection? id).map fun _ => d else x.connection? other := by
  by_cases h : other = id
  · subst h
    by_cases hl : other < x.connections.length
    · simp [connection?, setConnection, hl]
    · simp [connection?, setConnection, hl]
  · simp [connection?, setConnection, List.getElem?_set_ne (Ne.symm h), h]

theorem connection?_setConnection_self {x : ModuleContext} {id : ConnectionId} {c : Connection}
    (h : x.connection? id = some c) (d : Connection) :
    (x.setConnection id d).connection? id = some d := by
  simp [connection?_setConnection, h]

theorem isSome_of_isOpen {x : ModuleContext} {id : ConnectionId} (h : x.isOpen id = true) :
    (x.connection? id).isSome = true := by
  unfold isOpen at h
  cases hc : x.connection? id with
  | none =>
    rw [hc] at h
    cases h
  | some c => rfl

theorem isSome_setConnection (x : ModuleContext) (id other : ConnectionId) (d : Connection) :
    ((x.setConnection id d).connection? other).isSome = (x.connection? other).isSome := by
  rw [connection?_setConnection]
  by_cases h : other = id
  · simp [h]
  · simp [h]

section Invalidate

variable (x : ModuleContext) (id : ConnectionId)

/-- Invalidating a connection changes the list of connections alone. -/
theorem invalidate_eq :
    x.invalidate id = { x with connections := (x.invalidate id).connections } := by
  simp only [invalidate]
  split <;> rfl

@[simp] theorem settings_invalidate : (x.invalidate id).settings = x.settings := by
  rw [invalidate_eq]

@[simp] theorem messages_invalidate : (x.invalidate id).messages = x.messages := by
  rw [invalidate_eq]

@[simp] theorem table_invalidate : (x.invalidate id).table = x.table := by
  rw [invalidate_eq]

@[simp] theorem router_invalidate : (x.invalidate id).router = x.router := by
  rw [invalidate_eq]

@[simp] theorem pendingReplies_invalidate :
    (x.invalidate id).pendingReplies = x.pendingReplies := by
  rw [invalidate_eq]

@[simp] theorem inbound_invalidate : (x.invalidate id).inbound = x.inbound := by
  rw [invalidate_eq]

theorem connection?_invalidate (other : ConnectionId) :
    (x.invalidate id).connection? other =
      if other = id then (x.connection? id).map (·.invalidate.2) else x.connection? other := by
  simp only [invalidate]
  cases h : x.connection? id with
  | none =>
    by_cases ho : other = id
    · simp [ho, h]
    · simp [ho]
  | some c => simp [connection?_setConnection, h]

theorem isOpen_invalidate (other : ConnectionId) :
    (x.invalidate id).isOpen other = (decide (other ≠ id) && x.isOpen other) := by
  simp only [isOpen]
  rw [connection?_invalidate]
  by_cases ho : other = id
  · subst ho
    cases x.connection? other <;> simp [Connection.invalidate]
  · simp [ho]

theorem isSome_invalidate (other : ConnectionId) :
    ((x.invalidate id).connection? other).isSome = (x.connection? other).isSome := by
  rw [connection?_invalidate]
  by_cases h : other = id
  · simp [h]
  · simp [h]

end Invalidate

section Shutdown

variable (ids : List ConnectionId) (x : ModuleContext)

theorem messages_foldl_invalidate : (ids.foldl invalidate x).messages = x.messages := by
  induction ids generalizing x with
  | nil => rfl
  | cons id ids ih => rw [List.foldl_cons, ih, messages_invalidate]

theorem isSome_foldl_invalidate (other : ConnectionId) :
    ((ids.foldl invalidate x).connection? other).isSome = (x.connection? other).isSome := by
  induction ids generalizing x with
  | nil => rfl
  | cons id ids ih => rw [List.foldl_cons, ih, isSome_invalidate]

theorem isOpen_foldl_invalidate (other : ConnectionId) :
    (ids.foldl invalidate x).isOpen other = (decide (other ∉ ids) && x.isOpen other) := by
  induction ids generalizing x with
  | nil => simp
  | cons id ids ih =>
    rw [List.foldl_cons, ih, isOpen_invalidate]
    by_cases h : other = id
    · simp [h]
    · simp [h]

end Shutdown

theorem handleClosed_of_mem {x : ModuleContext} {id : ConnectionId} (h : id ∈ x.table) :
    x.handleClosed id =
      (true,
        if x.router = some id then
          ({ x with table := x.table.filter (· ≠ id) }.invalidate id).loseRouter
        else ({ x with table := x.table.filter (· ≠ id) }.invalidate id).detachAll id) := by
  simp only [handleClosed]
  rw [if_pos h]

theorem handleClosed_of_not_mem {x : ModuleContext} {id : ConnectionId} (h : id ∉ x.table) :
    x.handleClosed id = (false, x) := by
  simp only [handleClosed]
  rw [if_neg h]

section HandleClosed

variable (x : ModuleContext) (id : ConnectionId)

/-- Tearing down a connection leaves most of the module alone. -/
theorem handleClosed_eq :
    (x.handleClosed id).2 = { x with
      connections := (x.handleClosed id).2.connections
      table := (x.handleClosed id).2.table
      messages := (x.handleClosed id).2.messages
      router := (x.handleClosed id).2.router
      routerLostTally := (x.handleClosed id).2.routerLostTally } := by
  by_cases h : id ∈ x.table
  · rw [handleClosed_of_mem h, invalidate_eq]
    dsimp only
    split <;> rfl
  · rw [handleClosed_of_not_mem h]

@[simp] theorem settings_handleClosed : (x.handleClosed id).2.settings = x.settings := by
  by_cases h : id ∈ x.table
  · rw [handleClosed_of_mem h]
    dsimp only
    split <;> simp [loseRouter, detachAll]
  · rw [handleClosed_of_not_mem h]

@[simp] theorem pendingReplies_handleClosed :
    (x.handleClosed id).2.pendingReplies = x.pendingReplies := by
  by_cases h : id ∈ x.table
  · rw [handleClosed_of_mem h]
    dsimp only
    split <;> simp [loseRouter, detachAll]
  · rw [handleClosed_of_not_mem h]

@[simp] theorem inbound_handleClosed : (x.handleClosed id).2.inbound = x.inbound := by
  by_cases h : id ∈ x.table
  · rw [handleClosed_of_mem h]
    dsimp only
    split <;> simp [loseRouter, detachAll]
  · rw [handleClosed_of_not_mem h]

theorem table_handleClosed : (x.handleClosed id).2.table = x.table.filter (· ≠ id) := by
  by_cases h : id ∈ x.table
  · rw [handleClosed_of_mem h]
    dsimp only
    split <;> simp [loseRouter, detachAll]
  · rw [handleClosed_of_not_mem h]
    refine (List.filter_eq_self.mpr fun other ho => ?_).symm
    simpa using fun e : other = id => h (e ▸ ho)

theorem mem_table_handleClosed {other : ConnectionId} :
    other ∈ (x.handleClosed id).2.table ↔ other ∈ x.table ∧ other ≠ id := by
  rw [table_handleClosed]
  simp

theorem router_handleClosed (h : id ∈ x.table) :
    (x.handleClosed id).2.router = if x.router = some id then none else x.router := by
  rw [handleClosed_of_mem h]
  dsimp only
  split <;> simp [loseRouter, detachAll]

theorem router_of_handleClosed {other : ConnectionId}
    (h : (x.handleClosed id).2.router = some other) : x.router = some other := by
  by_cases hid : id ∈ x.table
  · rw [router_handleClosed x id hid] at h
    split at h
    · cases h
    · exact h
  · rwa [handleClosed_of_not_mem hid] at h

theorem connection?_handleClosed (h : id ∈ x.table) (other : ConnectionId) :
    (x.handleClosed id).2.connection? other =
      if other = id then (x.connection? id).map (·.invalidate.2) else x.connection? other := by
  have key := connection?_invalidate { x with table := x.table.filter (· ≠ id) } id other
  rw [handleClosed_of_mem h]
  dsimp only
  split <;> exact key

theorem isSome_handleClosed (other : ConnectionId) :
    ((x.handleClosed id).2.connection? other).isSome = (x.connection? other).isSome := by
  by_cases h : id ∈ x.table
  · rw [connection?_handleClosed x id h]
    by_cases ho : other = id
    · simp [ho]
    · simp [ho]
  · rw [handleClosed_of_not_mem h]

theorem messages_handleClosed (h : id ∈ x.table) :
    (x.handleClosed id).2.messages =
      if x.router = some id then x.messages else x.messages.map (·.detachAll id) := by
  rw [handleClosed_of_mem h]
  dsimp only
  split <;> simp [loseRouter, detachAll]

theorem isOpen_handleClosed (h : id ∈ x.table) (other : ConnectionId) :
    (x.handleClosed id).2.isOpen other = (decide (other ≠ id) && x.isOpen other) := by
  have key := isOpen_invalidate { x with table := x.table.filter (· ≠ id) } id other
  rw [handleClosed_of_mem h]
  dsimp only
  split <;> exact key

theorem incoming_handleClosed {other : ConnectionId} {c : Connection}
    (hc : x.connection? other = some c) :
    ∃ d, (x.handleClosed id).2.connection? other = some d ∧ d.incoming = c.incoming := by
  by_cases h : id ∈ x.table
  · rw [connection?_handleClosed x id h]
    by_cases ho : other = id
    · subst ho
      exact ⟨c.invalidate.2, by simp [hc], rfl⟩
    · exact ⟨c, by rw [if_neg ho, hc], rfl⟩
  · exact ⟨c, by rw [handleClosed_of_not_mem h, hc], rfl⟩

end HandleClosed

end ModuleContext

end ModuleLink
