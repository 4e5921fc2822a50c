import ModuleLink.Proofs.RouterEvents
import ModuleLink.Proofs.SwallowedMessages

/-! # The connections that a module looks after

Connections are handed over to a module, one of them at a time as the router's, and leave its table
when they are replaced, torn down or shut down. What matters to the table are the calls that tear a
connection down: between two of them a message that is sent, or a wait, leaves it as it is. So the
invariant has one case for such a call and one for each way to hand a connection over. -/
namespace ModuleLink

inductive Activity
  | performs (op : Operation)
  | waits (messageRef : Int32) (timeout : Option Span) (buffer : Option ReplyBuffer)

namespace Activity

def routes : Activity → Option ConnectionId
  | .performs (.attachRouter id) => some id
  | _ => none

def takes : Activity → Option ConnectionId
  | .performs (.addConnection id) => some id
  | a => a.routes

end Activity

def Closing.losesRouter (c : Closing) : Bool :=
  c.id ∈ c.found.table ∧ c.found.router = some c.id

/-- The routers that such calls tear down. -/
def routersLostBy (calls : List Closing) : List ConnectionId :=
  (calls.filter Closing.losesRouter).map Closing.id

namespace ModuleContext

def pursue (x : ModuleContext) : Activity → ModuleContext
  | .performs op => x.perform op
  | .waits messageRef timeout buffer => (x.waitInto messageRef timeout buffer).2

def pursueAll (x : ModuleContext) (run : List Activity) : ModuleContext := run.foldl pursue x

/-- A connection is new when it comes about and is handed over once, and only the module closes it. -/
def Fair (x : ModuleContext) (taken : List ConnectionId) : Activity → Prop
  | .performs (.opens c) => c.isOpen = true
  | .performs (.attachRouter id) | .performs (.addConnection id) =>
    (x.connection? id).isSome = true ∧ id ∉ taken
  | .performs (.otherEnd id c) => c.isOpen = x.isOpen id
  | _ => True

instance (x : ModuleContext) (taken : List ConnectionId) :
    (a : Activity) → Decidable (x.Fair taken a)
  | .performs (.opens c) => inferInstanceAs (Decidable (c.isOpen = true))
  | .performs (.attachRouter id) | .performs (.addConnection id) =>
    inferInstanceAs (Decidable ((x.connection? id).isSome = true ∧ id ∉ taken))
  | .performs (.otherEnd id c) => inferInstanceAs (Decidable (c.isOpen = x.isOpen id))
  | .performs (.register _) | .performs (.addHandler ..) | .performs (.handleClosed _)
  | .performs .shutdown | .performs (.send _) | .waits .. => .isTrue trivial

def FairAll (x : ModuleContext) (taken : List ConnectionId) : List Activity → Prop
  | [] => True
  | a :: run => x.Fair taken a ∧ (x.pursue a).FairAll (taken ++ a.takes.toList) run

instance decidableFairAll (x : ModuleContext) (taken : List ConnectionId) :
    ∀ run, Decidable (x.FairAll taken run)
  | [] => .isTrue trivial
  | a :: run =>
    have := decidableFairAll (x.pursue a) (taken ++ a.takes.toList) run
    inferInstanceAs (Decidable (x.Fair taken a ∧ _))

/-! The calls that tear connections down, in their order. -/

def sendClosings (x : ModuleContext) (q : SendRequest) : List Closing :=
  ((sendRecorded q).events x).filterMap SendEvent.closing?

def waitClosings (x : ModuleContext) (messageRef : Int32) (timeout : Option Span)
    (buffer : Option ReplyBuffer) : List Closing :=
  match (x.takePending messageRef).1, x.admission timeout with
  | none, .ok (router, c) =>
    let s := c.search x.settings.limits messageRef buffer
    if s.last.tearsDown then [⟨x.afterSearch router s, router⟩] else []
  | _, _ => []

def closings (x : ModuleContext) : Activity → List Closing
  | .performs (.handleClosed id) => [⟨x, id⟩]
  | .performs (.send q) => x.sendClosings q
  | .waits messageRef timeout buffer => x.waitClosings messageRef timeout buffer
  | _ => []

def closingsAll (x : ModuleContext) : List Activity → List Closing
  | [] => []
  | a :: run => x.closings a ++ (x.pursue a).closingsAll run

def Invalidated (x : ModuleContext) (id : ConnectionId) : Prop :=
  (x.connection? id).isSome = true ∧ x.isOpen id = false

/-- A module that was handed no connection yet, and all of whose connections are open. -/
structure Unconnected (x : ModuleContext) : Prop where
  table : x.table = []
  router : x.router = none
  connections : ∀ id, ¬ x.Invalidated id

/-- How the table, the router and the hook fit together after a run. -/
structure Consistent (x : ModuleContext) (run : List Activity) : Prop where
  nodup : (x.pursueAll run).table.Nodup
  live : ∀ id ∈ (x.pursueAll run).table, (x.pursueAll run).isOpen id = true
  routed : ∀ id, (x.pursueAll run).router = some id →
    id ∈ (x.pursueAll run).table ∧ (x.pursueAll run).isOpen id = true
  departed : ∀ done, done <+: run → ∀ id ∈ (x.pursueAll done).table,
    id ∉ (x.pursueAll run).table → (x.pursueAll run).Invalidated id
  answers : ∀ call ∈ x.closingsAll run,
    ((call.found.handleClosed call.id).1 = true ↔ call.id ∈ call.found.table) ∧
    (call.id ∉ call.found.table → (call.found.handleClosed call.id).2 = call.found)
  replaced : ∀ done, done <+: run → ∀ old, (x.pursueAll done).router = some old →
    (x.pursueAll run).router ≠ some old →
      (x.pursueAll run).handleClosed old = (false, x.pursueAll run)
  once : (routersLostBy (x.closingsAll run)).Nodup
  tally : (x.pursueAll run).routerLostTally =
    x.routerLostTally + x.routerLostHook.getD 0 * (routersLostBy (x.closingsAll run)).length

structure Undisturbed (x y : ModuleContext) : Prop where
  table : y.table = x.table
  router : y.router = x.router
  hook : y.routerLostHook = x.routerLostHook
  tally : y.routerLostTally = x.routerLostTally
  opened : ∀ id, x.isOpen id = true → y.isOpen id = true
  invalidated : ∀ id, y.Invalidated id ↔ x.Invalidated id

/-- A module reaches another one by tearing connections down, with nothing between two such calls. -/
inductive Closes : ModuleContext → List Closing → ModuleContext → Prop
  | rests {x y : ModuleContext} : x.Undisturbed y → Closes x [] y
  | closes {x y z : ModuleContext} {id : ConnectionId} {calls : List Closing} : x.Undisturbed y →
      Closes (y.handleClosed id).2 calls z → Closes x (⟨y, id⟩ :: calls) z

/-- The invariant: `taken` was handed over so far, `routers` of it as the router's, and `lost` are
the routers that were torn down. -/
structure Tracks (x : ModuleContext) (taken routers lost : List ConnectionId) : Prop where
  nodup : x.table.Nodup
  live : ∀ id ∈ x.table, x.isOpen id = true
  handed : ∀ id ∈ x.table, id ∈ taken
  routed : ∀ id, x.router = some id → id ∈ x.table ∧ id ∈ routers
  retired : ∀ id ∈ routers, id ∈ taken ∧ (x.router = some id ∨ id ∉ x.table)
  departed : ∀ id ∈ taken, id ∈ x.table ∨ x.Invalidated id
  untouched : ∀ id, x.Invalidated id → id ∈ taken
  once : lost.Nodup
  gone : ∀ id ∈ lost, id ∈ taken ∧ id ∉ x.table

variable {x y z : ModuleContext} {id : ConnectionId} {taken routers lost : List ConnectionId}

theorem Unconnected.tracks (h : x.Unconnected) : x.Tracks [] [] [] := by
  refine ⟨?_, ?_, ?_, ?_, nofun, nofun, ?_, .nil, nofun⟩
  · rw [h.table]
    exact .nil
  · rw [h.table]
    exact nofun
  · rw [h.table]
    exact nofun
  · rw [h.router]
    exact nofun
  · exact fun id dead => absurd dead (h.connections id)

/-! What leaves the table as it is. -/

theorem Undisturbed.refl (x : ModuleContext) : x.Undisturbed x :=
  ⟨rfl, rfl, rfl, rfl, fun _ => id, fun _ => .rfl⟩

theorem Undisturbed.trans (h : x.Undisturbed y) (h' : y.Undisturbed z) : x.Undisturbed z where
  table := h'.table.trans h.table
  router := h'.router.trans h.router
  hook := h'.hook.trans h.hook
  tally := h'.tally.trans h.tally
  opened id live := h'.opened id (h.opened id live)
  invalidated id := (h'.invalidated id).trans (h.invalidated id)

theorem Undisturbed.of_connections (table : y.table = x.table) (router : y.router = x.router)
    (hook : y.routerLostHook = x.routerLostHook) (tally : y.routerLostTally = x.routerLostTally)
    (connections : y.connections = x.connections) : x.Undisturbed y := by
  have same : ∀ id, y.connection? id = x.connection? id := fun id => by
    rw [connection?, connections, connection?]
  have still : ∀ id, y.isOpen id = x.isOpen id := fun id => by rw [isOpen, same, isOpen]
  refine ⟨table, router, hook, tally, fun id live => (still id).trans live, fun id => ?_⟩
  rw [Invalidated, same, still, Invalidated]

theorem Undisturbed.setConnection {d : Connection} (hd : d.isOpen = x.isOpen id) :
    x.Undisturbed (x.setConnection id d) := by
  have same : ∀ i, (x.setConnection id d).isOpen i = x.isOpen i := by
    intro i
    by_cases hi : i = id
    · subst hi
      simp only [isOpen] at hd ⊢
      rw [connection?_setConnection, if_pos rfl]
      cases hc : x.connection? i with
      | none => rfl
      | some c => simpa [hc] using hd
    · simp only [isOpen]
      rw [connection?_setConnection, if_neg hi]
  refine ⟨rfl, rfl, rfl, rfl, fun i live => (same i).trans live, fun i => ?_⟩
  rw [Invalidated, Invalidated, same, isSome_setConnection]

theorem Undisturbed.openConnection {c : Connection} (new : c.isOpen = true) :
    x.Undisturbed (x.openConnection c).2 := by
  have known : ∀ i, (x.connection? i).isSome = true →
      (x.openConnection c).2.connection? i = x.connection? i := fun i hi => by
    rw [connection?_openConnection, if_neg (ne_length_of_isSome hi)]
  refine ⟨rfl, rfl, rfl, rfl, fun i live => ?_, fun i => ⟨fun dead => ?_, fun dead => ?_⟩⟩
  · rw [isOpen, known i (isSome_of_isOpen live)]
    exact live
  · by_cases hi : i = x.connections.length
    · have now := dead.2
      rw [isOpen, connection?_openConnection, if_pos hi, Option.any_some, new] at now
      cases now
    · simpa only [Invalidated, isOpen, connection?_openConnection, if_neg hi] using dead
  · simpa only [Invalidated, isOpen, known i dead.1] using dead

theorem Undisturbed.sendOn (id : ConnectionId) (m : Envelope) (x : ModuleContext) :
    x.Undisturbed ((sendOn id m).run x).2 := by
  rw [run_sendOn]
  cases hc : x.connection? id with
  | none => exact .refl x
  | some c =>
    refine .setConnection ?_
    rw [c.send_eq m]
    simp [isOpen, hc]

theorem Undisturbed.prepareMessage (q : SendRequest) (x : ModuleContext) :
    x.Undisturbed ((prepareMessage q).run x).2 := by
  obtain ⟨next, hn⟩ := prepareMessage_prepares q x
  rw [hn]
  exact .of_connections rfl rfl rfl rfl rfl

theorem Undisturbed.tracks (h : x.Undisturbed y) (t : x.Tracks taken routers lost) :
    y.Tracks taken routers lost := by
  obtain ⟨table, router, -, -, opened, invalidated⟩ := h
  refine ⟨?_, ?_, ?_, ?_, ?_, ?_, ?_, t.once, ?_⟩
  · rw [table]
    exact t.nodup
  · rw [table]
    exact fun id hid => opened id (t.live id hid)
  · rw [table]
    exact t.handed
  · rw [table, router]
    exact t.routed
  · rw [table, router]
    exact t.retired
  · rw [table]
    exact fun id hid => (t.departed id hid).imp_right (invalidated id).mpr
  · exact fun id dead => t.untouched id ((invalidated id).mp dead)
  · rw [table]
    exact t.gone

/-! What takes connections out of the table. -/

/-- Connections leave the table and are closed, some of them as lost routers. -/
theorem Tracks.closing (t : x.Tracks taken routers lost) (closed : ConnectionId → Prop)
    {more : List ConnectionId} (nodup : y.table.Nodup)
    (table : ∀ i, i ∈ y.table ↔ i ∈ x.table ∧ ¬ closed i)
    (opened : ∀ i, y.isOpen i = true ↔ x.isOpen i = true ∧ ¬ closed i)
    (same : ∀ i, (y.connection? i).isSome = (x.connection? i).isSome)
    (stays : ∀ i, y.router = some i → x.router = some i ∧ ¬ closed i)
    (leaves : ∀ i, x.router = some i → y.router = some i ∨ closed i)
    (listed : ∀ i, closed i → i ∈ x.table) (once : more.Nodup) (shut : ∀ i ∈ more, closed i) :
    y.Tracks taken routers (lost ++ more) := by
  have invalidated : ∀ i, y.Invalidated i ↔ x.Invalidated i ∨ closed i := by
    intro i
    have live : ¬ closed i → y.isOpen i = x.isOpen i := fun hi => by
      rw [Bool.eq_iff_iff, opened, and_iff_left hi]
    simp only [Invalidated]
    rw [same]
    by_cases hi : closed i
    · have known := isSome_of_isOpen (t.live i (listed i hi))
      have dead : ¬ y.isOpen i = true := fun now => ((opened i).mp now).2 hi
      exact ⟨fun _ => .inr hi, fun _ => ⟨known, Bool.eq_false_iff.mpr dead⟩⟩
    · rw [live hi, or_iff_left hi]
  refine ⟨nodup, ?_, ?_, ?_, ?_, ?_, ?_, ?_, ?_⟩
  · intro i hi
    obtain ⟨hi, spared⟩ := (table i).mp hi
    exact (opened i).mpr ⟨t.live i hi, spared⟩
  · exact fun i hi => t.handed i ((table i).mp hi).1
  · intro i hr
    obtain ⟨before, spared⟩ := stays i hr
    obtain ⟨hi, attached⟩ := t.routed i before
    exact ⟨(table i).mpr ⟨hi, spared⟩, attached⟩
  · intro i hi
    obtain ⟨handed, current | absent⟩ := t.retired i hi
    · exact ⟨handed, (leaves i current).imp_right fun hc now => ((table i).mp now).2 hc⟩
    · exact ⟨handed, .inr fun now => absent ((table i).mp now).1⟩
  · intro i hi
    rcases t.departed i hi with still | dead
    · by_cases hc : closed i
      · exact .inr ((invalidated i).mpr (.inr hc))
      · exact .inl ((table i).mpr ⟨still, hc⟩)
    · exact .inr ((invalidated i).mpr (.inl dead))
  · intro i dead
    rcases (invalidated i).mp dead with dead | hc
    · exact t.untouched i dead
    · exact t.handed i (listed i hc)
  · refine List.nodup_append.mpr ⟨t.once, once, ?_⟩
    rintro i hi j hj rfl
    exact (t.gone i hi).2 (listed i (shut i hj))
  · intro i hi
    rcases List.mem_append.mp hi with hi | hi
    · exact ⟨(t.gone i hi).1, fun now => (t.gone i hi).2 ((table i).mp now).1⟩
    · exact ⟨t.handed i (listed i (shut i hi)), fun now => ((table i).mp now).2 (shut i hi)⟩

theorem routersLostBy_cons (c : Closing) (calls : List Closing) :
    routersLostBy (c :: calls) = routersLostBy [c] ++ routersLostBy calls := by
  cases h : c.losesRouter <;> simp [routersLostBy, h]

theorem routersLostBy_append (calls more : List Closing) :
    routersLostBy (calls ++ more) = routersLostBy calls ++ routersLostBy more := by
  simp [routersLostBy]

theorem routersLostBy_router (tracked : id ∈ x.table) (hr : x.router = some id) :
    routersLostBy [⟨x, id⟩] = [id] := by
  simp [routersLostBy, Closing.losesRouter, tracked, hr]

theorem routersLostBy_other (h : id ∉ x.table ∨ x.router ≠ some id) :
    routersLostBy [⟨x, id⟩] = [] := by
  have spares : ¬ (id ∈ x.table ∧ x.router = some id) := fun both => h.elim (· both.1) (· both.2)
  simpa [routersLostBy, Closing.losesRouter] using spares

theorem Tracks.handleClosed (t : x.Tracks taken routers lost) (id : ConnectionId) :
    (x.handleClosed id).2.Tracks taken routers (lost ++ routersLostBy [⟨x, id⟩]) := by
  by_cases tracked : id ∈ x.table
  · have router := router_handleClosed x id tracked
    have nodup : (x.handleClosed id).2.table.Nodup := by
      rw [table_handleClosed]
      exact t.nodup.filter _
    refine t.closing (· = id) nodup (fun i => mem_table_handleClosed x id) ?_
      (isSome_handleClosed x id) ?_ ?_ ?_ ?_ ?_
    · intro i
      rw [isOpen_handleClosed x id tracked, Bool.and_eq_true, decide_eq_true_iff]
      exact and_comm
    · intro i hi
      rw [router] at hi
      split at hi
      · cases hi
      · rename_i other
        exact ⟨hi, fun e => other (e ▸ hi)⟩
    · intro i hi
      by_cases e : i = id
      · exact .inr e
      · rw [router, if_neg (fun hr => e (Option.some.inj (hi.symm.trans hr)))]
        exact .inl hi
    · rintro i rfl
      exact tracked
    · by_cases hr : x.router = some id
      · rw [routersLostBy_router tracked hr]
        exact List.pairwise_singleton _ id
      · rw [routersLostBy_other (.inr hr)]
        exact .nil
    · intro i hi
      obtain ⟨c, hc, rfl⟩ := List.mem_map.mp hi
      obtain rfl := List.mem_singleton.mp (List.mem_filter.mp hc).1
      rfl
  · rw [handleClosed_of_not_mem tracked, routersLostBy_other (.inl tracked), List.append_nil]
    exact t

theorem foldl_invalidate_eq (ids : List ConnectionId) (x : ModuleContext) :
    ids.foldl invalidate x = { x with connections := (ids.foldl invalidate x).connections } := by
  induction ids generalizing x with
  | nil => rfl
  | cons id ids ih =>
    rw [List.foldl_cons, ih, invalidate_eq]

theorem Tracks.shutdown (t : x.Tracks taken routers lost) :
    x.shutdown.Tracks taken routers lost := by
  have opened : ∀ i, x.shutdown.isOpen i = (decide (i ∉ x.table) && x.isOpen i) :=
    isOpen_foldl_invalidate x.table x
  rw [← List.append_nil lost]
  refine t.closing (· ∈ x.table) .nil ?_ ?_ (isSome_foldl_invalidate x.table x) nofun ?_
    (fun _ => id) .nil nofun
  · exact fun i => ⟨nofun, fun listed => absurd listed.1 listed.2⟩
  · intro i
    rw [opened, Bool.and_eq_true, decide_eq_true_iff]
    exact and_comm
  · exact fun i hr => .inr (t.routed i hr).1

/-! What puts connections into the table. -/

theorem Tracks.addConnection (t : x.Tracks taken routers lost)
    (known : (x.connection? id).isSome = true) (new : id ∉ taken) :
    (x.addConnection id).Tracks (taken ++ [id]) routers lost := by
  have table : (x.addConnection id).table = id :: x.table := by
    have others : ∀ i ∈ x.table, decide (i ≠ id) = true :=
      fun i hi => decide_eq_true fun e => new (e ▸ t.handed i hi)
    simp only [ModuleContext.addConnection]
    rw [List.filter_eq_self.mpr others]
  have absent : ∀ i ∈ taken, i ∉ x.table → i ∉ (x.addConnection id).table := by
    intro i hi out
    rw [table]
    exact List.not_mem_cons_of_ne_of_not_mem (fun e => new (e ▸ hi)) out
  refine ⟨?_, ?_, ?_, ?_, ?_, ?_, ?_, t.once, ?_⟩
  · rw [table]
    exact List.nodup_cons.mpr ⟨fun hi => new (t.handed id hi), t.nodup⟩
  · rw [table]
    refine List.forall_mem_cons.mpr ⟨?_, t.live⟩
    show x.isOpen id = true
    by_contra closed
    exact new (t.untouched id ⟨known, Bool.eq_false_iff.mpr closed⟩)
  · rw [table]
    exact List.forall_mem_cons.mpr ⟨by simp, fun i hi => List.mem_append_left _ (t.handed i hi)⟩
  · intro i hi
    rw [table]
    exact ⟨List.mem_cons_of_mem _ (t.routed i hi).1, (t.routed i hi).2⟩
  · intro i hi
    obtain ⟨handed, current⟩ := t.retired i hi
    exact ⟨List.mem_append_left _ handed, current.imp_right (absent i handed)⟩
  · intro i hi
    rw [table]
    rcases List.mem_append.mp hi with hi | hi
    · exact (t.departed i hi).imp_left (List.mem_cons_of_mem _)
    · exact .inl (List.mem_singleton.mp hi ▸ List.mem_cons_self ..)
  · exact fun i dead => List.mem_append_left _ (t.untouched i dead)
  · intro i hi
    obtain ⟨handed, out⟩ := t.gone i hi
    exact ⟨List.mem_append_left _ handed, absent i handed out⟩

/-- A connection of the table is made the router's while there is none. -/
theorem Tracks.route (t : x.Tracks taken routers lost) (free : x.router = none)
    (tracked : id ∈ x.table) : { x with router := some id }.Tracks taken (routers ++ [id]) lost := by
  refine ⟨t.nodup, t.live, t.handed, ?_, ?_, t.departed, t.untouched, t.once, t.gone⟩
  · intro i hi
    obtain rfl := Option.some.inj hi
    exact ⟨tracked, by simp⟩
  · intro i hi
    rcases List.mem_append.mp hi with hi | hi
    · obtain ⟨handed, current | absent⟩ := t.retired i hi
      · exact absurd (free.symm.trans current) nofun
      · exact ⟨handed, .inr absent⟩
    · obtain rfl := List.mem_singleton.mp hi
      exact ⟨t.handed i tracked, .inl rfl⟩

def withoutRouter (x : ModuleContext) (old : ConnectionId) : ModuleContext :=
  { x with table := x.table.filter (· ≠ old), router := none }.invalidate old

theorem attachRouter_of_some {old : ConnectionId} (hr : x.router = some old) (ne : id ≠ old) :
    x.attachRouter id = { (x.withoutRouter old).addConnection id with router := some id } := by
  have table : (id :: x.table.filter (· ≠ id)).filter (· ≠ old) =
      id :: (x.table.filter (· ≠ old)).filter (· ≠ id) := by
    rw [List.filter_cons_of_pos (by simpa using ne), List.filter_filter, List.filter_filter]
    simp only [Bool.and_comm]
  simp only [attachRouter, hr, withoutRouter, addConnection, table, invalidate, connection?]
  cases x.connections[old]? <;> rfl

theorem Tracks.withoutRouter {old : ConnectionId} (t : x.Tracks taken routers lost)
    (hr : x.router = some old) : (x.withoutRouter old).Tracks taken routers lost := by
  have opened := isOpen_invalidate { x with table := x.table.filter (· ≠ old), router := none } old
  have same := isSome_invalidate { x with table := x.table.filter (· ≠ old), router := none } old
  have table : (x.withoutRouter old).table = x.table.filter (· ≠ old) := table_invalidate ..
  have router : (x.withoutRouter old).router = none := router_invalidate ..
  rw [← List.append_nil lost]
  refine t.closing (· = old) ?_ ?_ ?_ same ?_ ?_ ?_ .nil nofun
  · rw [table]
    exact t.nodup.filter _
  · intro i
    rw [table]
    simp
  · intro i
    show (ModuleContext.invalidate _ old).isOpen i = true ↔ _
    rw [opened, Bool.and_eq_true, decide_eq_true_iff]
    exact and_comm
  · rw [router]
    exact nofun
  · exact fun i hi => .inr (Option.some.inj (hi.symm.trans hr))
  · rintro i rfl
    exact (t.routed i hr).1

theorem Tracks.attachRouter (t : x.Tracks taken routers lost)
    (known : (x.connection? id).isSome = true) (new : id ∉ taken) :
    (x.attachRouter id).Tracks (taken ++ [id]) (routers ++ [id]) lost := by
  have tracked : ∀ w : ModuleContext, id ∈ (w.addConnection id).table :=
    fun _ => List.mem_cons_self ..
  cases hr : x.router with
  | none =>
    simp only [ModuleContext.attachRouter, hr]
    exact (t.addConnection known new).route hr (tracked x)
  | some old =>
    have ne : id ≠ old := fun e => new (e ▸ t.handed old (t.routed old hr).1)
    have dropped := t.withoutRouter hr
    have router : (x.withoutRouter old).router = none := router_invalidate ..
    rw [attachRouter_of_some hr ne]
    refine (dropped.addConnection ?_ new).route router (tracked _)
    rw [ModuleContext.withoutRouter, isSome_invalidate]
    exact known

/-! What a run of activities does. -/

theorem Tracks.closes {calls : List Closing} (c : x.Closes calls z)
    (t : x.Tracks taken routers lost) : z.Tracks taken routers (lost ++ routersLostBy calls) := by
  induction c generalizing lost with
  | rests same =>
    rw [routersLostBy, List.filter_nil, List.map_nil, List.append_nil]
    exact same.tracks t
  | closes same rest ih =>
    rw [routersLostBy_cons, ← List.append_assoc]
    exact ih ((same.tracks t).handleClosed _)

structure Counts (x : ModuleContext) (runs : Nat) (y : ModuleContext) : Prop where
  hook : y.routerLostHook = x.routerLostHook
  tally : y.routerLostTally = x.routerLostTally + x.routerLostHook.getD 0 * runs

theorem Counts.trans {m n : Nat} (h : x.Counts m y) (h' : y.Counts n z) : x.Counts (m + n) z := by
  refine ⟨h'.hook.trans h.hook, ?_⟩
  rw [h'.tally, h.tally, h.hook, Nat.mul_add, Nat.add_assoc]

theorem Undisturbed.counts (h : x.Undisturbed y) : x.Counts 0 y := ⟨h.hook, h.tally⟩

theorem counts_handleClosed (x : ModuleContext) (id : ConnectionId) :
    x.Counts (routersLostBy [⟨x, id⟩]).length (x.handleClosed id).2 := by
  refine ⟨by rw [handleClosed_eq], ?_⟩
  by_cases tracked : id ∈ x.table
  · rw [handleClosed_of_mem tracked, invalidate_eq]
    by_cases hr : x.router = some id
    · rw [routersLostBy_router tracked hr, if_pos hr]
      simp [loseRouter]
    · rw [routersLostBy_other (.inr hr), if_neg hr]
      rfl
  · rw [handleClosed_of_not_mem tracked, routersLostBy_other (.inl tracked)]
    rfl

theorem Closes.counts {calls : List Closing} (c : x.Closes calls z) :
    x.Counts (routersLostBy calls).length z := by
  induction c with
  | rests same => exact same.counts
  | closes same rest ih =>
    rw [routersLostBy_cons, List.length_append, ← Nat.zero_add (_ + _)]
    exact same.counts.trans ((counts_handleClosed _ _).trans ih)

theorem Closes.later {calls : List Closing} (h : x.Undisturbed y) (c : y.Closes calls z) :
    x.Closes calls z := by
  cases c with
  | rests same => exact .rests (h.trans same)
  | closes same rest => exact .closes (h.trans same) rest

theorem Closes.handleClosed (x : ModuleContext) (id : ConnectionId) :
    x.Closes [⟨x, id⟩] (x.handleClosed id).2 :=
  .closes (.refl x) (.rests (.refl _))

theorem Closes.deliver (m : Envelope) (hs : List Handler) (x : ModuleContext) :
    x.Closes (((deliver m hs).events x).filterMap SendEvent.closing?)
      ((deliver m hs).forget.run x).2 := by
  induction hs generalizing x with
  | nil => exact .rests (.refl x)
  | cons h hs ih =>
    rw [deliver_cons, events_deliver_cons]
    cases x.liveConnection h with
    | none => exact ih x
    | some id =>
      have sent := Undisturbed.sendOn id (m.withIntent h.intent) x
      dsimp only
      generalize (ModuleContext.sendOn id (m.withIntent h.intent)).run x = out at sent ⊢
      obtain ⟨e | _, y⟩ := out
      · dsimp only
        by_cases broken : e.isBrokenPipe = true
        · simp only [broken, true_and, if_true]
          by_cases torn : (y.handleClosed id).1 = true
          · rw [if_pos torn, if_pos torn]
            exact .closes sent (ih _)
          · rw [if_neg torn, if_neg torn]
            exact .later sent (.handleClosed y id)
        · have spares : ¬ (e.isBrokenPipe = true ∧ (y.handleClosed id).1 = true) :=
            fun both => broken both.1
          rw [if_neg broken, if_neg spares, if_neg broken]
          exact .rests sent
      · exact .later sent (ih y)

theorem Closes.send (q : SendRequest) (x : ModuleContext) :
    x.Closes (x.sendClosings q) ((sendMessage q).run x).2 := by
  have prepared := Undisturbed.prepareMessage q x
  rw [run_sendMessage, sendClosings, events_sendRecorded]
  generalize (ModuleContext.prepareMessage q).run x = out at prepared ⊢
  obtain ⟨e | out, y⟩ := out
  · exact .rests prepared
  · dsimp only
    by_cases direct : out.message.deliversDirectly = true
    · have delivered := Closes.deliver out.envelope out.message.handlers.reverse y
      rw [if_pos direct, if_pos direct]
      generalize (ModuleContext.deliver _ _).forget.run y = sent at delivered ⊢
      obtain ⟨_ | _, z⟩ := sent <;> exact .later prepared delivered
    · have sent := Undisturbed.sendOn out.router (out.envelope.withIntent out.message.id) y
      rw [if_neg direct, if_neg direct]
      generalize (ModuleContext.sendOn _ _).run y = sent' at sent ⊢
      obtain ⟨_ | _, z⟩ := sent' <;> exact .rests (prepared.trans sent)

/-- A search leaves the connection that it reads as open as it was. -/
theorem Undisturbed.afterSearch {c : Connection} (hc : x.connection? id = some c)
    {s : Connection.Search} (same : s.connection.isOpen = c.isOpen) :
    x.Undisturbed (x.afterSearch id s) := by
  have read : x.Undisturbed (x.setConnection id s.connection) :=
    .setConnection (by simp [isOpen, hc, same])
  exact read.trans (.of_connections rfl rfl rfl rfl rfl)

theorem Closes.wait (messageRef : Int32) (timeout : Option Span) (buffer : Option ReplyBuffer)
    (x : ModuleContext) : x.Closes (x.waitClosings messageRef timeout buffer)
      (x.waitInto messageRef timeout buffer).2 := by
  rw [waitClosings]
  cases x.waitInto_ends messageRef timeout buffer with
  | kept before m after split others found pending ends =>
    rw [ends, pending]
    exact .rests (.of_connections rfl rfl rfl rfl rfl)
  | refused e missing pending refusal ends =>
    rw [ends, pending, refusal]
    exact .rests (.refl x)
  | searched router c taken missing pending admitted of ends =>
    obtain ⟨-, hc⟩ := admission_ok admitted
    have searched := Undisturbed.afterSearch hc
      ((congrArg Connection.isOpen of.connection).trans rfl)
    rw [ends, pending, admitted, readReply_eq x router c messageRef timeout buffer rfl]
    dsimp only
    split
    · exact .later searched (.handleClosed _ router)
    · exact .rests searched

theorem counts_attachRouter (x : ModuleContext) (id : ConnectionId) :
    x.Counts 0 (x.attachRouter id) := by
  simp only [attachRouter]
  cases x.router with
  | none => exact ⟨rfl, rfl⟩
  | some old =>
    dsimp only
    rw [invalidate_eq]
    exact ⟨rfl, rfl⟩

theorem counts_shutdown (x : ModuleContext) : x.Counts 0 x.shutdown := by
  simp only [shutdown]
  rw [foldl_invalidate_eq]
  exact ⟨rfl, rfl⟩

/-- An activity that hands nothing over, and reaches the table with calls that tear down alone. -/
theorem Tracks.pursue_of_closes (t : x.Tracks taken routers lost) {a : Activity}
    (takes : a.takes = none) (routes : a.routes = none)
    (c : x.Closes (x.closings a) (x.pursue a)) :
    (x.pursue a).Tracks (taken ++ a.takes.toList) (routers ++ a.routes.toList)
        (lost ++ routersLostBy (x.closings a)) ∧
      x.Counts (routersLostBy (x.closings a)).length (x.pursue a) := by
  rw [takes, routes, Option.toList_none, List.append_nil, List.append_nil]
  exact ⟨t.closes c, c.counts⟩

/-- One activity keeps the invariant, and the hook runs once for every router that it tears down. -/
theorem Tracks.pursue (t : x.Tracks taken routers lost) {a : Activity} (fair : x.Fair taken a) :
    (x.pursue a).Tracks (taken ++ a.takes.toList) (routers ++ a.routes.toList)
        (lost ++ routersLostBy (x.closings a)) ∧
      x.Counts (routersLostBy (x.closings a)).length (x.pursue a) := by
  cases a with
  | waits messageRef timeout buffer =>
    exact t.pursue_of_closes rfl rfl (.wait messageRef timeout buffer x)
  | performs op =>
    cases op with
    | register m =>
      exact t.pursue_of_closes rfl rfl (.rests (.of_connections rfl rfl rfl rfl rfl))
    | addHandler name id intent =>
      refine t.pursue_of_closes rfl rfl (.rests ?_)
      show x.Undisturbed ((addDirectHandler name ⟨some id, intent⟩).run x).2
      rcases run_addDirectHandler name ⟨some id, intent⟩ x with same | more
      · rw [same]
        exact .refl x
      · rw [more]
        exact .of_connections rfl rfl rfl rfl rfl
    | opens c => exact t.pursue_of_closes rfl rfl (.rests (.openConnection fair))
    | handleClosed id => exact t.pursue_of_closes rfl rfl (.handleClosed x id)
    | send q => exact t.pursue_of_closes rfl rfl (.send q x)
    | otherEnd id c => exact t.pursue_of_closes rfl rfl (.rests (.setConnection fair))
    | attachRouter id =>
      refine ⟨?_, counts_attachRouter x id⟩
      show (x.attachRouter id).Tracks (taken ++ [id]) (routers ++ [id]) (lost ++ [])
      rw [List.append_nil]
      exact t.attachRouter fair.1 fair.2
    | addConnection id =>
      refine ⟨?_, rfl, rfl⟩
      show (x.addConnection id).Tracks (taken ++ [id]) (routers ++ []) (lost ++ [])
      rw [List.append_nil, List.append_nil]
      exact t.addConnection fair.1 fair.2
    | shutdown =>
      refine ⟨?_, counts_shutdown x⟩
      show x.shutdown.Tracks (taken ++ []) (routers ++ []) (lost ++ [])
      rw [List.append_nil, List.append_nil, List.append_nil]
      exact t.shutdown

private theorem filterMap_cons_toList {α β : Type} (f : α → Option β) (a : α) (as : List α) :
    (a :: as).filterMap f = (f a).toList ++ as.filterMap f := by
  cases h : f a <;> simp [h]

theorem pursueAll_append (x : ModuleContext) (run more : List Activity) :
    x.pursueAll (run ++ more) = (x.pursueAll run).pursueAll more := List.foldl_append

theorem Tracks.pursueAll (t : x.Tracks taken routers lost) {run : List Activity}
    (fair : x.FairAll taken run) :
    (x.pursueAll run).Tracks (taken ++ run.filterMap Activity.takes)
        (routers ++ run.filterMap Activity.routes) (lost ++ routersLostBy (x.closingsAll run)) ∧
      x.Counts (routersLostBy (x.closingsAll run)).length (x.pursueAll run) := by
  induction run generalizing x taken routers lost with
  | nil => simpa [closingsAll, routersLostBy, ModuleContext.pursueAll] using ⟨t, rfl, rfl⟩
  | cons a run ih =>
    obtain ⟨tracks, counts⟩ := t.pursue fair.1
    obtain ⟨later, counts'⟩ := ih tracks fair.2
    rw [closingsAll, routersLostBy_append, List.length_append, filterMap_cons_toList,
      filterMap_cons_toList, ← List.append_assoc,
      ← List.append_assoc, ← List.append_assoc]
    exact ⟨later, counts.trans counts'⟩

theorem FairAll.append {run more : List Activity} (fair : x.FairAll taken (run ++ more)) :
    x.FairAll taken run ∧
      (x.pursueAll run).FairAll (taken ++ run.filterMap Activity.takes) more := by
  induction run generalizing x taken with
  | nil => exact ⟨trivial, by simpa [ModuleContext.pursueAll] using fair⟩
  | cons a run ih =>
    obtain ⟨first, rest⟩ := fair
    obtain ⟨before, after⟩ := ih rest
    refine ⟨⟨first, before⟩, ?_⟩
    rwa [filterMap_cons_toList, ← List.append_assoc]

/-- What was in the table at some point, and which router there was, at the end of the run. -/
theorem Tracks.since {done run : List Activity} (start : x.Tracks [] [] [])
    (fair : x.FairAll [] run) (hd : done <+: run) :
    (∀ id ∈ (x.pursueAll done).table,
        id ∈ (x.pursueAll run).table ∨ (x.pursueAll run).Invalidated id) ∧
      ∀ old, (x.pursueAll done).router = some old →
        (x.pursueAll run).router = some old ∨ old ∉ (x.pursueAll run).table := by
  obtain ⟨rest, rfl⟩ := hd
  obtain ⟨before, after⟩ := fair.append
  have then' := (start.pursueAll before).1
  have now := (then'.pursueAll after).1
  rw [pursueAll_append]
  refine ⟨fun id hid => ?_, fun old hr => ?_⟩
  · exact now.departed id (List.mem_append_left _ (then'.handed id hid))
  · exact (now.retired old (List.mem_append_left _ (then'.routed old hr).2)).2

/-- The table, the router and the hook are consistent after every run. -/
theorem consistent_after {run : List Activity} (start : x.Unconnected) (fair : x.FairAll [] run) :
    x.Consistent run := by
  obtain ⟨now, counts⟩ := start.tracks.pursueAll fair
  refine ⟨now.nodup, now.live, ?_, ?_, ?_, ?_, ?_, counts.tally⟩
  · intro id hr
    obtain ⟨tracked, -⟩ := now.routed id hr
    exact ⟨tracked, now.live id tracked⟩
  · exact fun done hd id hid out => ((start.tracks.since fair hd).1 id hid).resolve_left out
  · intro call _
    by_cases tracked : call.id ∈ call.found.table
    · rw [handleClosed_of_mem tracked]
      exact ⟨iff_of_true rfl tracked, fun out => absurd tracked out⟩
    · rw [handleClosed_of_not_mem tracked]
      exact ⟨iff_of_false nofun tracked, fun _ => rfl⟩
  · intro done hd old hr replaced
    exact handleClosed_of_not_mem (((start.tracks.since fair hd).2 old hr).resolve_left replaced)
  · simpa using now.once

/-- A router that is replaced, a peer that is lost in the middle of a delivery, and a router that is
lost while a reply is waited for; then calls for the connections that are gone. -/
def losses : List Activity := [
  .performs (.opens (attended "a")), .performs (.opens (attended "b")),
  .performs (.opens (attended "c")), .performs (.attachRouter 0), .performs (.addConnection 1),
  .performs (.attachRouter 2), .performs (.handleClosed 0),
  .performs (.register ⟨"goal", 7, .goal, none, none, true, [⟨some 1, 3⟩]⟩),
  .performs (.otherEnd 1 (attended "b").peerCloses), .performs (.send { message := "goal" }),
  .performs (.otherEnd 2 (attended "c").peerCloses), .waits 5 none none,
  .performs (.handleClosed 1), .performs (.handleClosed 9), .performs .shutdown]

theorem consistent_after_losses :
    ({ routerLostHook := some 1 } : ModuleContext).Unconnected ∧
      ({ routerLostHook := some 1 } : ModuleContext).FairAll [] losses ∧
      ({ routerLostHook := some 1 } : ModuleContext).Consistent losses := by
  have start : ({ routerLostHook := some 1 } : ModuleContext).Unconnected :=
    ⟨rfl, rfl, fun _ dead => absurd dead.1 nofun⟩
  have fair : ({ routerLostHook := some 1 } : ModuleContext).FairAll [] losses := by
    decide +kernel
  exact ⟨start, fair, consistent_after start fair⟩

/-- Of all these connections one was lost as the router. -/
example : routersLostBy (({ routerLostHook := some 1 } : ModuleContext).closingsAll losses) = [2] ∧
    (({ routerLostHook := some 1 } : ModuleContext).closingsAll losses).map Closing.id =
      [0, 1, 2, 1, 9] ∧
    (({ routerLostHook := some 1 } : ModuleContext).pursueAll losses).routerLostTally = 1 := by
  decide +kernel

end ModuleContext

end ModuleLink
