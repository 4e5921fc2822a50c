import ModuleLink.Proofs.QueryReplies
import ModuleLink.Proofs.TrackedConnections
import ModuleLink.ReferenceQueries

/-! # What the operations on a module do to its references

Sending and waiting leave the references alone. A response may bind its reference to a message; it
is then written, and settles its reference exactly if it was written. -/
namespace ModuleLink

namespace ReferenceTable

variable {α : Type}

def callAll (t : ReferenceTable α) : List (TableCall α) → List (TableStep α) × ReferenceTable α
  | [] => ([], t)
  | c :: cs => ((t.call c).1 :: ((t.call c).2.callAll cs).1, ((t.call c).2.callAll cs).2)

theorem callAll_append (t : ReferenceTable α) (cs more : List (TableCall α)) :
    t.callAll (cs ++ more) =
      ((t.callAll cs).1 ++ ((t.callAll cs).2.callAll more).1, ((t.callAll cs).2.callAll more).2) := by
  induction cs generalizing t with
  | nil => rfl
  | cons c cs ih => simp only [List.cons_append, callAll, ih]

/-- A call through a handle that is not honoured changes nothing. -/
theorem call_of_stale {t : ReferenceTable α} {c : TableCall α} {h : Handle} {e : PeerError}
    (through : c.handle? = some h) (stale : t.get h = .error e) : t.call c = (.refused c e, t) := by
  cases c with
  | acquire entry => cases through
  | get g =>
    obtain rfl := Option.some.inj through
    simp only [call, stale]
  | modify g edit =>
    obtain rfl := Option.some.inj through
    simp only [call, modify, stale]
    rfl
  | release g =>
    obtain rfl := Option.some.inj through
    simp only [call, release, stale]
    rfl

theorem callAll_singleton (t : ReferenceTable α) (c : TableCall α) :
    t.callAll [c] = ([(t.call c).1], (t.call c).2) := rfl

end ReferenceTable

section Histories

variable {α : Type} {past : List (TableStep α)} {t : ReferenceTable α} {h : Handle} {entry : α}

theorem TableHistory.callAll (run : TableHistory past t) (cs : List (TableCall α)) :
    TableHistory (past ++ (t.callAll cs).1) (t.callAll cs).2 := by
  induction cs generalizing past t with
  | nil => simpa only [ReferenceTable.callAll, List.append_nil] using run
  | cons c cs ih =>
    rw [ReferenceTable.callAll, List.append_cons]
    exact ih (run.call c)

def TableCall.applied (h : Handle) (entry : α) : TableCall α → α
  | modify g edit => if g = h then edit entry else entry
  | _ => entry

theorem Opens.call (run : TableHistory past t) (opens : Opens past h entry) {c : TableCall α}
    (kept : c ≠ .release h) : Opens (past ++ [(t.call c).1]) h (c.applied h entry) := by
  have answer := (run.records.call c).1
  generalize hs : (t.call c).1 = s at answer
  have spared : ∀ e, s ≠ .released h e := by
    rintro e rfl
    cases answer with
    | released => exact kept rfl
  have now := opens.step answer spared
  convert now using 1
  cases answer with
  | acquired | got | released => rfl
  | @modified g other edit opened =>
    simp only [TableCall.applied, TableStep.edited]
    by_cases same : g = h
    · rw [if_pos same, if_pos (congrArg Handle.index same)]
    · rw [if_neg same, if_neg fun index => same (opened.handle_eq opens index)]
  | refused through shut =>
    cases c with
    | acquire | get | release => rfl
    | modify g edit =>
      have other : g ≠ h := by
        rintro rfl
        exact shut entry (Option.some.inj through ▸ opens)
      simp only [TableCall.applied, TableStep.edited, if_neg other]

theorem Opens.callAll (run : TableHistory past t) (opens : Opens past h entry)
    {cs : List (TableCall α)} (kept : ∀ c ∈ cs, c ≠ .release h) :
    Opens (past ++ (t.callAll cs).1) h (cs.foldl (TableCall.applied h) entry) := by
  induction cs generalizing past t entry with
  | nil => simpa only [ReferenceTable.callAll, List.append_nil, List.foldl_nil] using opens
  | cons c cs ih =>
    have first := opens.call run (kept c (List.mem_cons_self ..))
    rw [ReferenceTable.callAll, List.append_cons, List.foldl_cons]
    exact ih (run.call c) first fun d hd => kept d (List.mem_cons_of_mem _ hd)

theorem Opens.released (run : TableHistory past t) (opens : Opens past h entry) :
    (t.call (.release h)).1 = .released h entry := by
  obtain ⟨u, released, -⟩ := run.records.release opens
  simp only [ReferenceTable.call, released]

/-- A handle that was released is refused, as long as its slot was not released too often. -/
theorem TableHistory.get_of_released {since : List (TableStep α)} {held : α}
    (run : TableHistory (past ++ .acquired entry h :: since) t) (released : .released h held ∈ since)
    (few : releasesOf h.index since < UInt32.size) : t.get h = .error (.staleReference h) := by
  cases got : t.get h with
  | error e => exact congrArg Except.error (ReferenceTable.get_error got)
  | ok found =>
    obtain ⟨-, divides⟩ := (run.opens_iff found).mp ((run.records.get_eq_ok_iff h found).mp got)
    exact absurd (Nat.le_of_dvd (releasesOf_pos released) divides) (Nat.not_le.mpr few)

end Histories

namespace ModuleContext

/-- The connections that the module looks after, and the router's, are there. -/
structure Wired (x : ModuleContext) : Prop where
  table : ∀ id ∈ x.table, (x.connection? id).isSome = true
  router : ∀ id, x.router = some id → (x.connection? id).isSome = true

/-- No connection is forgotten, and none is looked after or made the router's. -/
structure Keeps (x y : ModuleContext) : Prop where
  known : ∀ id, (x.connection? id).isSome = true → (y.connection? id).isSome = true
  table : ∀ id ∈ y.table, id ∈ x.table
  router : ∀ id, y.router = some id → x.router = some id

variable {x y z : ModuleContext} {id : ConnectionId}

theorem Keeps.refl (x : ModuleContext) : x.Keeps x :=
  ⟨fun _ known => known, fun _ listed => listed, fun _ routed => routed⟩

theorem Keeps.trans (h : x.Keeps y) (h' : y.Keeps z) : x.Keeps z where
  known id known := h'.known id (h.known id known)
  table id listed := h.table id (h'.table id listed)
  router id routed := h.router id (h'.router id routed)

theorem Keeps.wired (h : x.Keeps y) (wired : x.Wired) : y.Wired where
  table id listed := h.known id (wired.table id (h.table id listed))
  router id routed := h.known id (wired.router id (h.router id routed))

theorem Keeps.of_connections (connections : y.connections = x.connections)
    (table : y.table = x.table) (router : y.router = x.router) : x.Keeps y := by
  refine ⟨fun id known => ?_, fun id listed => table ▸ listed, fun id routed => router ▸ routed⟩
  rwa [connection?, connections]

theorem Keeps.setConnection (x : ModuleContext) (id : ConnectionId) (c : Connection) :
    x.Keeps (x.setConnection id c) := by
  refine ⟨fun other known => ?_, fun _ listed => listed, fun _ routed => routed⟩
  rwa [isSome_setConnection]

theorem Keeps.handleClosed (x : ModuleContext) (id : ConnectionId) :
    x.Keeps (x.handleClosed id).2 where
  known other known := by rwa [isSome_handleClosed]
  table _ listed := ((mem_table_handleClosed x id).mp listed).1
  router _ routed := router_of_handleClosed x id routed

theorem references_handleClosed (x : ModuleContext) (id : ConnectionId) :
    (x.handleClosed id).2.references = x.references := by
  rw [handleClosed_eq]

end ModuleContext

def Act.Spares {α : Type} (a : Act α) : Prop :=
  ∀ x, (a.run x).2.references = x.references ∧ x.Keeps (a.run x).2

namespace Act

variable {α β : Type} {a : Act α}

theorem Prepares.spares (h : a.Prepares) : a.Spares := by
  intro x
  obtain ⟨next, hn⟩ := h x
  rw [hn]
  exact ⟨rfl, .of_connections rfl rfl rfl⟩

theorem Spares.bind {f : α → Act β} (ha : a.Spares) (hf : ∀ v, (f v).Spares) :
    (a >>= f).Spares := by
  intro x
  obtain ⟨references, keeps⟩ := ha x
  rw [run_bind]
  generalize a.run x = out at references keeps ⊢
  obtain ⟨_ | v, y⟩ := out
  · exact ⟨references, keeps⟩
  · obtain ⟨references', keeps'⟩ := hf v y
    exact ⟨references'.trans references, keeps.trans keeps'⟩

theorem Spares.pure (v : α) : (Pure.pure v : Act α).Spares := fun x => ⟨rfl, .refl x⟩

theorem Spares.throw (e : PeerError) : (MonadExcept.throw e : Act α).Spares :=
  fun x => ⟨rfl, .refl x⟩

end Act

namespace ModuleContext

variable {x y : ModuleContext}

theorem sendOn_spares (id : ConnectionId) (m : Envelope) : (sendOn id m).Spares := by
  intro x
  rw [run_sendOn]
  cases x.connection? id with
  | none => exact ⟨rfl, .refl x⟩
  | some c => exact ⟨rfl, .setConnection x id _⟩

theorem deliver_spares (m : Envelope) (hs : List Handler) : (deliver m hs).forget.Spares := by
  intro x
  induction hs generalizing x with
  | nil => exact ⟨rfl, .refl x⟩
  | cons h hs ih =>
    rw [deliver_cons]
    cases x.liveConnection h with
    | none => exact ih x
    | some id =>
      obtain ⟨references, keeps⟩ := sendOn_spares id (m.withIntent h.intent) x
      dsimp only
      generalize (sendOn id (m.withIntent h.intent)).run x = sent at references keeps ⊢
      obtain ⟨e | _, y⟩ := sent
      · have closed : (y.handleClosed id).2.references = x.references :=
          (references_handleClosed y id).trans references
        have kept : x.Keeps (y.handleClosed id).2 := keeps.trans (.handleClosed y id)
        dsimp only
        split
        · obtain ⟨references', keeps'⟩ := ih (y.handleClosed id).2
          exact ⟨references'.trans closed, kept.trans keeps'⟩
        · split
          · exact ⟨closed, kept⟩
          · exact ⟨references, keeps⟩
      · obtain ⟨references', keeps'⟩ := ih y
        exact ⟨references'.trans references, keeps.trans keeps'⟩

theorem sendMessage_spares (q : SendRequest) : (sendMessage q).Spares := by
  intro x
  obtain ⟨references, keeps⟩ := (prepareMessage_prepares q).spares x
  rw [run_sendMessage]
  generalize (prepareMessage q).run x = prepared at references keeps ⊢
  obtain ⟨_ | out, y⟩ := prepared
  · exact ⟨references, keeps⟩
  · obtain ⟨act, sends⟩ : ∃ act : Act Unit, act = if out.message.deliversDirectly then
        (deliver out.envelope out.message.handlers.reverse).forget
      else sendOn out.router (out.envelope.withIntent out.message.id) := ⟨_, rfl⟩
    have spares : act.Spares := by
      rw [sends]
      split
      · exact deliver_spares _ _
      · exact sendOn_spares _ _
    obtain ⟨references', keeps'⟩ := spares y
    dsimp only
    rw [← sends]
    generalize act.run y = sent at references' keeps' ⊢
    obtain ⟨_ | _, z⟩ := sent
    all_goals exact ⟨references'.trans references, keeps.trans keeps'⟩

theorem waitInto_spares (x : ModuleContext) (messageRef : Int32) (timeout : Option Span)
    (buffer : Option ReplyBuffer) :
    (x.waitInto messageRef timeout buffer).2.references = x.references ∧
      x.Keeps (x.waitInto messageRef timeout buffer).2 := by
  obtain ⟨-, kept, hw⟩ | ⟨id, c, s, last, -, -, -, -, hw⟩ := x.waitInto_cases messageRef timeout buffer
  · rw [hw]
    exact ⟨rfl, .of_connections rfl rfl rfl⟩
  · have searched : x.Keeps (x.afterSearch id s) :=
      .trans (.setConnection x id s.connection) (.of_connections rfl rfl rfl)
    rw [hw]
    split
    · exact ⟨references_handleClosed _ id, searched.trans (.handleClosed _ id)⟩
    · exact ⟨rfl, searched⟩

theorem waitForReply_spares (messageRef : Int32) (timeout : Option Span) :
    (waitForReply messageRef timeout).Spares := by
  refine .bind (fun x => x.waitInto_spares messageRef timeout none) fun waited => ?_
  cases waited.result
  · exact .throw _
  · exact .pure _

theorem query_spares (q : SendRequest) (timeout : Option Span) : (query q timeout).Spares :=
  .bind nextRef_prepares.spares fun _ => .bind (sendMessage_spares _) fun _ =>
    waitForReply_spares _ _

theorem decodePayload_reads (m : Envelope) (f : Formatter) : (decodePayload m f).Reads := by
  simp only [decodePayload]
  cases m.decodePayload f
  · exact .throw _
  · exact .pure _

theorem referenceStatus_spares (h : Handle) (timeout : Option Span) :
    (referenceStatus h timeout).Spares := by
  refine .bind (requireMessage_reads _).prepares.spares fun message => ?_
  refine .bind (reference_reads h).prepares.spares fun r => .bind (query_spares _ _) fun answer => ?_
  refine .bind (decodePayload_reads _ _).prepares.spares fun value => ?_
  cases statusOf value
  · exact .throw _
  · exact .pure _

/-! What is done to a reference is a call on the table. -/

theorem run_editReference (h : Handle) (edit : Reference → Reference) (x : ModuleContext) :
    (editReference h edit).run x = ((x.references.get h).map fun _ => (),
      { x with references := (x.references.call (.modify h edit)).2 }) := by
  have now : (get : Act ModuleContext).run x = (.ok x, x) := rfl
  simp only [editReference, ReferenceTable.call, ReferenceTable.modify]
  rw [run_bind, now]
  dsimp only
  cases x.references.get h <;> rfl

theorem run_freeReference (h : Handle) (x : ModuleContext) :
    (freeReference h).run x = ((x.references.get h).map fun _ => (),
      { x with references := (x.references.call (.release h)).2 }) := by
  have now : (get : Act ModuleContext).run x = (.ok x, x) := rfl
  simp only [freeReference, ReferenceTable.call, ReferenceTable.release]
  rw [run_bind, now]
  dsimp only
  cases x.references.get h <;> rfl

def binding (x : ModuleContext) (h : Handle) : List (TableCall Reference) :=
  match x.references.get h with
  | .ok r =>
    match r.message, r.name.bind x.message? with
    | none, some m => [.modify h fun r => { r with message := some m }]
    | _, _ => []
  | .error _ => []

def bound (x : ModuleContext) (h : Handle) : ModuleContext :=
  { x with references := (x.references.callAll (x.binding h)).2 }

theorem bound_eq {x : ModuleContext} {h : Handle} (unbound : x.binding h = []) : x.bound h = x := by
  rw [bound, unbound]
  rfl

theorem Keeps.bound (x : ModuleContext) (h : Handle) : x.Keeps (x.bound h) :=
  .of_connections rfl rfl rfl

/-- Asking for the message of a reference binds it, and does nothing else. -/
theorem state_resolveMessage (h : Handle) (x : ModuleContext) :
    ((resolveMessage h).run x).2 = x.bound h := by
  simp only [resolveMessage, bound, binding]
  rw [run_bind, run_reference]
  cases x.references.get h with
  | error e => rfl
  | ok r =>
    obtain ⟨id, message, name, replyTo, response⟩ := r
    cases message with
    | some m => rfl
    | none =>
      cases name with
      | none => rfl
      | some name =>
        dsimp only
        rw [run_bind, run_requireMessage, Option.bind_some]
        cases x.message? name with
        | none => rfl
        | some m =>
          dsimp only
          rw [run_bind, run_editReference, ReferenceTable.callAll_singleton]
          cases (x.references.get h).map fun _ => () <;> rfl

theorem Act.Spares.after_bound {α : Type} {a : Act α} (spares : a.Spares) (x : ModuleContext)
    (h : Handle) : (a.run (x.bound h)).2.references = (x.bound h).references ∧
      x.Keeps (a.run (x.bound h)).2 := by
  obtain ⟨references, keeps⟩ := spares (x.bound h)
  exact ⟨references, (Keeps.bound x h).trans keeps⟩

/-- Asking for the data of an exchange may bind its reference, and spares the references then. -/
theorem references_referenceData (h : Handle) (timeout : Option Span) (x : ModuleContext) :
    ((referenceData h timeout).run x).2.references =
        (x.references.callAll (if (x.message? dataQuery).isSome then x.binding h else [])).2 ∧
      x.Keeps ((referenceData h timeout).run x).2 := by
  simp only [referenceData]
  rw [run_bind, run_requireMessage]
  cases x.message? dataQuery with
  | none => exact ⟨rfl, .refl x⟩
  | some m =>
    have state := state_resolveMessage h x
    dsimp only
    rw [run_bind]
    generalize (resolveMessage h).run x = out at state ⊢
    obtain ⟨_ | message, y⟩ := out
    · obtain rfl : y = x.bound h := state
      exact ⟨rfl, .bound x h⟩
    · obtain rfl : y = x.bound h := state
      refine Act.Spares.after_bound ?_ x h
      cases message.messageFormat with
      | none => exact .throw _
      | some format =>
        refine .bind (reference_reads h).prepares.spares fun r => .bind (query_spares _ _) fun answer => ?_
        refine .bind (decodePayload_reads _ _).prepares.spares fun value => ?_
        cases value
        · exact .throw _
        · exact .pure _

theorem run_attempted (q : SendRequest) (x : ModuleContext) :
    ∃ y, (do
      try let _ ← sendMessage q
      catch _ => pure () : Act Unit).run x = (.ok (), y) ∧
        y.references = x.references ∧ x.Keeps y := by
  obtain ⟨references, keeps⟩ := sendMessage_spares q x
  rw [run_tryCatch, run_bind]
  generalize (sendMessage q).run x = out at references keeps ⊢
  obtain ⟨_ | r, y⟩ := out <;> exact ⟨y, rfl, references, keeps⟩

/-- Releasing a reference frees it, whether or not the router can be told. -/
theorem references_releaseReference (h : Handle) (x : ModuleContext) :
    ((releaseReference h).run x).2.references = (x.references.call (.release h)).2 ∧
      x.Keeps ((releaseReference h).run x).2 := by
  have now : (get : Act ModuleContext).run x = (.ok x, x) := rfl
  simp only [releaseReference]
  rw [run_bind, run_reference]
  cases hg : x.references.get h with
  | error e =>
    rw [ReferenceTable.call_of_stale rfl hg]
    exact ⟨rfl, .refl x⟩
  | ok r =>
    dsimp only
    rw [Act.run_bind_of_ok now]
    split
    · obtain ⟨y, told, references, keeps⟩ := run_attempted
        { message := releaseInform, payload := some (idPayload r.id) } x
      rw [Act.run_bind_of_ok told, run_freeReference, references]
      exact ⟨rfl, keeps.trans (.of_connections rfl rfl rfl)⟩
    · rw [run_freeReference]
      exact ⟨rfl, .of_connections rfl rfl rfl⟩

end ModuleContext

end ModuleLink
