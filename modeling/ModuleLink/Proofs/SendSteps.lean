import ModuleLink.Delivery
import ModuleLink.Proofs.ConnectionTable
import ModuleLink.Proofs.FailingActs
import ModuleLink.Proofs.WriteLoops

/-! # What sending does, step by step

A message is prepared, which changes the message reference alone, and then written to one or more
connections. A write changes what was written on its connection alone. -/
namespace ModuleLink

def Act.Reads {α : Type} (a : Act α) : Prop := ∀ x, (a.run x).2 = x

/-- An action that may take a message reference, and changes nothing else. -/
def Act.Prepares {α : Type} (a : Act α) : Prop :=
  ∀ x, ∃ next, (a.run x).2 = { x with nextSendRef := next }

namespace Act.Reads

variable {α β : Type} {a : Act α}

theorem pure (v : α) : (Pure.pure v : Act α).Reads := fun _ => rfl

theorem throw (e : PeerError) : (MonadExcept.throw e : Act α).Reads := fun _ => rfl

theorem get : (MonadState.get : Act ModuleContext).Reads := fun _ => rfl

theorem bind {f : α → Act β} (ha : a.Reads) (hf : ∀ v, (f v).Reads) : (a >>= f).Reads := by
  intro x
  have same := ha x
  rw [run_bind]
  generalize a.run x = out at same ⊢
  obtain ⟨_ | v, y⟩ := out
  · exact same
  · exact (hf v y).trans same

theorem prepares (h : a.Reads) : a.Prepares := fun x => ⟨x.nextSendRef, h x⟩

end Act.Reads

namespace ModuleContext

theorem run_requireRouter (x : ModuleContext) :
    requireRouter.run x =
      match x.router with
      | some id => (.ok id, x)
      | none => (.error .notConnected, x) := by
  simp only [requireRouter]
  rw [run_bind]
  show (match x.router with | some id => pure id | none => throw .notConnected : Act _).run x = _
  cases x.router <;> rfl

theorem run_requireMessage (name : String) (x : ModuleContext) :
    (requireMessage name).run x =
      match x.message? name with
      | some m => (.ok m, x)
      | none => (.error (.undefinedMessage name), x) := by
  simp only [requireMessage]
  rw [run_bind]
  show (match x.message? name with
    | some m => pure m
    | none => throw (.undefinedMessage name) : Act _).run x = _
  cases x.message? name <;> rfl

theorem run_sendOn (id : ConnectionId) (m : Envelope) (x : ModuleContext) :
    (sendOn id m).run x =
      match x.connection? id with
      | none => (.ok (), x)
      | some c => ((c.send m).1.mapError .frame, x.setConnection id (c.send m).2) := by
  simp only [sendOn]
  rw [run_bind]
  show (match x.connection? id with
    | none => pure ()
    | some c => _ : Act Unit).run x = _
  cases x.connection? id with
  | none => rfl
  | some c =>
    dsimp only
    rcases c.send m with ⟨_ | _, d⟩ <;> rfl

theorem run_sendOn_of_some {x : ModuleContext} {id : ConnectionId} {c : Connection}
    (hc : x.connection? id = some c) (m : Envelope) :
    (sendOn id m).run x = ((c.send m).1.mapError .frame, x.setConnection id (c.send m).2) := by
  rw [run_sendOn, hc]

theorem sendOn_ok {x y : ModuleContext} {id : ConnectionId} {c : Connection} {m : Envelope}
    (hc : x.connection? id = some c) (h : (sendOn id m).run x = (.ok (), y)) :
    (c.send m).1 = .ok () ∧ y = x.setConnection id (c.send m).2 := by
  rw [run_sendOn_of_some hc] at h
  obtain ⟨result, rfl⟩ := Prod.mk.inj h
  cases sent : (c.send m).1 with
  | ok => exact ⟨rfl, rfl⟩
  | error e =>
    rw [sent] at result
    cases result

/-- Sending on a connection leaves every connection as open as it was. -/
theorem isOpen_setConnection_send {x : ModuleContext} {id : ConnectionId} {c : Connection}
    (hc : x.connection? id = some c) (m : Envelope) (other : ConnectionId) :
    (x.setConnection id (c.send m).2).isOpen other = x.isOpen other := by
  simp only [isOpen]
  rw [connection?_setConnection]
  by_cases ho : other = id
  · subst ho
    rw [if_pos rfl, hc, c.send_eq m]
    rfl
  · rw [if_neg ho]

theorem requireRouter_reads : requireRouter.Reads := by
  intro x
  rw [run_requireRouter]
  split <;> rfl

theorem requireMessage_reads (name : String) : (requireMessage name).Reads := by
  intro x
  rw [run_requireMessage]
  split <;> rfl

theorem reference_reads (h : Handle) : (reference h).Reads := by
  refine .bind .get fun x => ?_
  cases x.references.get h
  · exact .throw _
  · exact .pure _

theorem build_reads (d : Draft) : (build d).Reads := by
  simp only [build]
  cases d.build
  · exact .throw _
  · exact .pure _

theorem nextRef_prepares : nextRef.Prepares := fun x => ⟨x.takeSendRef.1, rfl⟩

def requestedRef (q : SendRequest) : Act Int32 :=
  match q.messageRef with
  | some r => pure r
  | none => nextRef

def requestedDispatch (q : SendRequest) : Act Int32 :=
  match q.reference with
  | some h => Reference.id <$> reference h
  | none => pure noRef

theorem prepareMessage_eq (q : SendRequest) :
    prepareMessage q = (do
      let router ← requireRouter
      let message ← requireMessage q.message
      let messageRef ← requestedRef q
      let dispatchRef ← requestedDispatch q
      let x ← get
      let envelope ← build {
        classId := message.messageClass.id
        parentRef := x.parentRef
        dispatchRef
        messageRef
        payload := content message.messageFormat q.payload
        classData := content (x.classFormat message.messageClass) q.classData }
      return { router, message, messageRef, envelope }) := by
  simp only [prepareMessage, requestedRef, requestedDispatch]
  cases q.messageRef <;> cases q.reference <;> rfl

/-- The message reference that a request goes out with, and the module after it was taken. -/
def takeRef (x : ModuleContext) (q : SendRequest) : Int32 × ModuleContext :=
  match q.messageRef with
  | some r => (r, x)
  | none => x.takeSendRef

def dispatchRef (x : ModuleContext) (q : SendRequest) : Except PeerError Int32 :=
  match q.reference with
  | some h => (x.references.get h).map Reference.id
  | none => .ok noRef

def draft (x : ModuleContext) (message : Message) (q : SendRequest) (dispatchRef messageRef : Int32) :
    Draft where
  classId := message.messageClass.id
  parentRef := x.parentRef
  dispatchRef
  messageRef
  payload := content message.messageFormat q.payload
  classData := content (x.classFormat message.messageClass) q.classData

theorem takeRef_eq (x : ModuleContext) (q : SendRequest) :
    (x.takeRef q).2 = { x with nextSendRef := (x.takeRef q).2.nextSendRef } := by
  simp only [takeRef]
  cases q.messageRef <;> rfl

theorem run_requestedRef (q : SendRequest) (x : ModuleContext) :
    (requestedRef q).run x = (.ok (x.takeRef q).1, (x.takeRef q).2) := by
  simp only [requestedRef, takeRef]
  cases q.messageRef <;> rfl

theorem run_reference (h : Handle) (x : ModuleContext) :
    (reference h).run x = (x.references.get h, x) := by
  have got : (get : Act ModuleContext).run x = (.ok x, x) := rfl
  simp only [reference]
  rw [run_bind, got]
  dsimp only
  cases x.references.get h <;> rfl

theorem run_requestedDispatch (q : SendRequest) (x : ModuleContext) :
    (requestedDispatch q).run x = (x.dispatchRef q, x) := by
  simp only [requestedDispatch, dispatchRef]
  cases q.reference with
  | none => rfl
  | some h =>
    dsimp only
    rw [map_eq_pure_bind, run_bind, run_reference]
    cases x.references.get h <;> rfl

/-- A request is prepared if the router is there, its message and its exchange are known, and its
data is encoded. -/
theorem prepareMessage_of_build {q : SendRequest} {x : ModuleContext} {router : ConnectionId}
    {message : Message} {dispatch : Int32} {m : Envelope} (routed : x.router = some router)
    (named : x.message? q.message = some message) (referred : x.dispatchRef q = .ok dispatch)
    (built : (x.draft message q dispatch (x.takeRef q).1).build = .ok m) :
    (prepareMessage q).run x =
      (.ok ⟨router, message, (x.takeRef q).1, m⟩, (x.takeRef q).2) := by
  have same := x.takeRef_eq q
  have referred' : (x.takeRef q).2.dispatchRef q = .ok dispatch := by
    rw [same]
    exact referred
  have built' : ((x.takeRef q).2.draft message q dispatch (x.takeRef q).1).build = .ok m := by
    rw [same]
    exact built
  rw [prepareMessage_eq, run_bind, run_requireRouter, routed]
  dsimp only
  rw [run_bind, run_requireMessage, named]
  dsimp only
  rw [run_bind, run_requestedRef]
  dsimp only
  rw [run_bind, run_requestedDispatch, referred']
  generalize (x.takeRef q).2 = y at built' ⊢
  dsimp only
  rw [run_bind]
  show (build (y.draft message q dispatch (x.takeRef q).1) >>= fun m =>
    pure (⟨router, message, (x.takeRef q).1, m⟩ : Outgoing)).run y = _
  rw [run_bind, build, built']
  rfl

/-- Preparing a request takes its message reference, unless it fails before. -/
theorem state_prepareMessage (q : SendRequest) (x : ModuleContext) :
    ((prepareMessage q).run x).2 = x ∨ ((prepareMessage q).run x).2 = (x.takeRef q).2 := by
  rw [prepareMessage_eq, run_bind, run_requireRouter]
  cases x.router with
  | none => exact .inl rfl
  | some router =>
    dsimp only
    rw [run_bind, run_requireMessage]
    cases x.message? q.message with
    | none => exact .inl rfl
    | some message =>
      dsimp only
      rw [run_bind, run_requestedRef]
      right
      have dispatched : (requestedDispatch q).Reads := by
        intro y
        rw [run_requestedDispatch]
      refine Act.Reads.bind dispatched (fun _ => .bind .get fun _ => ?_) _
      exact .bind (build_reads _) fun _ => .pure _

theorem prepareMessage_prepares (q : SendRequest) : (prepareMessage q).Prepares := by
  intro x
  rcases state_prepareMessage q x with same | taken
  · exact ⟨x.nextSendRef, same⟩
  · exact ⟨_, taken.trans (x.takeRef_eq q)⟩

/-- What is sent goes to the router, or belongs to a message that was found by its name. -/
theorem prepareMessage_ok {q : SendRequest} {x y : ModuleContext} {out : Outgoing}
    (h : (prepareMessage q).run x = (.ok out, y)) :
    x.router = some out.router ∧ x.message? q.message = some out.message := by
  rw [prepareMessage_eq] at h
  obtain ⟨router, x₁, hr, h⟩ := run_bind_ok h
  obtain ⟨message, x₂, hm, h⟩ := run_bind_ok h
  obtain ⟨messageRef, x₃, -, h⟩ := run_bind_ok h
  obtain ⟨dispatchRef, x₄, -, h⟩ := run_bind_ok h
  obtain ⟨x₄', x₅, -, h⟩ := run_bind_ok h
  obtain ⟨envelope, x₆, -, h⟩ := run_bind_ok h
  obtain rfl := Except.ok.inj (Prod.mk.inj h).1
  rw [run_requireRouter] at hr
  cases hx : x.router with
  | none =>
    rw [hx] at hr
    cases hr
  | some id =>
    rw [hx] at hr
    cases hr
    rw [run_requireMessage] at hm
    cases hf : x.message? q.message with
    | none =>
      rw [hf] at hm
      cases hm
    | some found =>
      rw [hf] at hm
      cases hm
      exact ⟨rfl, rfl⟩

end ModuleContext

end ModuleLink
