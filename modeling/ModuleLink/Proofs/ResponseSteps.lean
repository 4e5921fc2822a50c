import ModuleLink.Proofs.ReferenceChanges

/-! # What responding does, step by step

A response is prepared, which binds its reference and changes nothing else, and then written. Its
reference is settled exactly if the write succeeded, and the response succeeds exactly then. -/
namespace ModuleLink

namespace ReferenceTable

variable {α : Type} {t : ReferenceTable α} {h : Handle} {entry : α}

theorem call_modify_of_get (got : t.get h = .ok entry) (edit : α → α) :
    (t.call (.modify h edit)).2 =
      { t with slots := t.slots.set h.index ⟨h.generation, some (edit entry)⟩ } := by
  simp only [call, modify, got]
  rfl

theorem get_call_modify (got : t.get h = .ok entry) (edit : α → α) :
    (t.call (.modify h edit)).2.get h = .ok (edit entry) := by
  have inside := (List.getElem?_eq_some_iff.mp (getElem?_of_get got)).1
  rw [call_modify_of_get got, get, get?, List.getElem?_set_self inside]
  simp

theorem get_call_modify_of_ne {g : Handle} (other : g ≠ h) (edit : α → α) :
    (t.call (.modify h edit)).2.get g = t.get g := by
  cases got : t.get h with
  | error e => rw [call_of_stale rfl got]
  | ok entry =>
    have there := getElem?_of_get got
    have inside := (List.getElem?_eq_some_iff.mp there).1
    rw [call_modify_of_get got]
    simp only [get, get?]
    by_cases index : g.index = h.index
    · have generation : h.generation ≠ g.generation := by
        intro same
        obtain ⟨i, n⟩ := g
        obtain ⟨j, m⟩ := h
        exact other (congr (congrArg Handle.mk index) same.symm)
      rw [index, List.getElem?_set_self inside, there]
      dsimp only
      rw [if_neg generation, if_neg generation]
    · rw [List.getElem?_set_ne (Ne.symm index)]

theorem call_modify_eq (t : ReferenceTable α) (h : Handle) (edit : α → α) :
    (t.call (.modify h edit)).2 = { t with slots := (t.call (.modify h edit)).2.slots } := by
  cases got : t.get h with
  | error e => rw [call_of_stale rfl got]
  | ok entry => rw [call_modify_of_get got]

end ReferenceTable

namespace ModuleContext

structure PreparedResponse where
  answered : Option (Handle × Reference)
  envelope : Envelope
  via : ConnectionId

def answeredReference (response : Response) : Act (Option (Handle × Reference)) :=
  match response.reference with
  | some h => do return some (h, ← reference h)
  | none => return none

def encodeResponse (response : Response) (answered : Option (Handle × Reference))
    (labels : ResponseLabels) : Act Envelope := do
  let (format, classData) ← match response.relabelAs with
    | some name => do
      let message ← requireMessage name
      pure (message.messageFormat, content (some .text) (some (textBytes message.name)))
    | none => do
      pure (labels.format, content ((← get).classFormat response.messageClass) response.classData)
  build {
    classId := response.messageClass.id
    parentRef := (← get).parentRef
    intent := labels.intent
    dispatchRef := answered.elim noRef (·.2.id)
    messageRef := labels.messageRef
    payload := content format response.data
    classData }

def responseConnection (response : Response) (answered : Option (Handle × Reference)) :
    Act ConnectionId :=
  match response.via with
  | some id => pure id
  | none => replyConnection (answered.bind (·.2.replyTo))

/-- Everything that comes before the write. -/
def prepareResponse (response : Response) : Act PreparedResponse := do
  let answered ← answeredReference response
  let labels ← responseLabels response answered
  let envelope ← encodeResponse response answered labels
  let via ← responseConnection response answered
  return { answered, envelope, via }

def settleAnswered : Option (Handle × Reference) → Act Unit
  | some (h, r) => settleReference h r
  | none => return

theorem sendResponse_eq (response : Response) :
    sendResponse response = (do
      let p ← prepareResponse response
      sendOn p.via p.envelope
      settleAnswered p.answered) := by
  simp only [sendResponse, prepareResponse, answeredReference, encodeResponse, responseConnection]
  obtain ⟨c, reference, relabelAs, data, classData, via⟩ := response
  cases reference <;> cases relabelAs <;> cases via <;> simp [settleAnswered]

variable {x y : ModuleContext} {response : Response} {answered : Option (Handle × Reference)}

def referenceOf (x : ModuleContext) (response : Response) :
    Except PeerError (Option (Handle × Reference)) :=
  match response.reference with
  | some h => (x.references.get h).map fun r => some (h, r)
  | none => .ok none

theorem referenceOf_cases (x : ModuleContext) (response : Response) :
    (response.reference = none ∧ x.referenceOf response = .ok none) ∨
    (∃ h e, response.reference = some h ∧ x.references.get h = .error e ∧
      x.referenceOf response = .error e) ∨
    ∃ h r, response.reference = some h ∧ x.references.get h = .ok r ∧
      x.referenceOf response = .ok (some (h, r)) := by
  simp only [referenceOf]
  cases response.reference with
  | none => exact .inl ⟨rfl, rfl⟩
  | some h =>
    dsimp only
    cases got : x.references.get h with
    | error e => exact .inr (.inl ⟨h, e, rfl, got, rfl⟩)
    | ok r => exact .inr (.inr ⟨h, r, rfl, got, rfl⟩)

theorem run_answeredReference (response : Response) (x : ModuleContext) :
    (answeredReference response).run x = (x.referenceOf response, x) := by
  simp only [answeredReference, referenceOf]
  cases response.reference with
  | none => rfl
  | some h =>
    dsimp only
    rw [run_bind, run_reference]
    cases x.references.get h <;> rfl

def boundBy (x : ModuleContext) (response : Response) : ModuleContext :=
  match response.reference with
  | some h => x.bound h
  | none => x

theorem boundBy_eq (x : ModuleContext) (response : Response) :
    x.boundBy response = { x with references := (x.boundBy response).references } := by
  simp only [boundBy]
  cases response.reference <;> rfl

theorem boundBy_of_error {e : PeerError} (stale : x.referenceOf response = .error e) :
    x.boundBy response = x := by
  obtain ⟨-, given⟩ | ⟨h, e', through, missing, -⟩ | ⟨h, r, -, -, given⟩ :=
    x.referenceOf_cases response
  · cases given.symm.trans stale
  · simp only [boundBy, through]
    refine bound_eq ?_
    simp only [binding, missing]
  · cases given.symm.trans stale

theorem state_responseLabels (given : x.referenceOf response = .ok answered) :
    ((responseLabels response answered).run x).2 = x.boundBy response := by
  obtain ⟨through, found⟩ | ⟨h, e, -, -, stale⟩ | ⟨h, r, through, -, found⟩ :=
    x.referenceOf_cases response
  · obtain rfl := Except.ok.inj (found.symm.trans given)
    simp only [boundBy, through]
    rfl
  · cases stale.symm.trans given
  · obtain rfl := Except.ok.inj (found.symm.trans given)
    have state := state_resolveMessage h x
    simp only [responseLabels, boundBy, through]
    rw [run_bind]
    generalize (resolveMessage h).run x = out at state ⊢
    obtain ⟨e | message, y⟩ := out
    · exact state
    · dsimp only
      split <;> exact state

theorem encodeResponse_reads (response : Response) (answered : Option (Handle × Reference))
    (labels : ResponseLabels) : (encodeResponse response answered labels).Reads := by
  simp only [encodeResponse]
  cases response.relabelAs with
  | none => exact .bind .get fun _ => .bind (.pure _) fun _ => .bind .get fun _ => build_reads _
  | some name =>
    refine .bind (requireMessage_reads name) fun _ => .bind (.pure _) fun _ => ?_
    exact .bind .get fun _ => build_reads _

theorem run_replyConnection (replyTo : Option ConnectionId) (x : ModuleContext) :
    (replyConnection replyTo).run x =
      match replyTo.filter (· ∈ x.table) with
      | some id => (.ok id, x)
      | none => requireRouter.run x := by
  have now : (get : Act ModuleContext).run x = (.ok x, x) := rfl
  simp only [replyConnection]
  rw [Act.run_bind_of_ok now]
  cases replyTo.filter (· ∈ x.table) <;> rfl

theorem responseConnection_reads (response : Response)
    (answered : Option (Handle × Reference)) : (responseConnection response answered).Reads := by
  simp only [responseConnection]
  cases response.via with
  | some id => exact .pure id
  | none =>
    intro x
    dsimp only
    rw [run_replyConnection]
    cases (answered.bind (·.2.replyTo)).filter (· ∈ x.table) with
    | some id => rfl
    | none => exact requireRouter_reads x

/-- A response goes where it is told to, or else to where the query came from if that is still
tracked, or else to the router. -/
theorem responseConnection_way {id : ConnectionId}
    (h : (responseConnection response answered).run x = (.ok id, y)) :
    response.via.or (((answered.bind (·.2.replyTo)).filter (· ∈ x.table)).or x.router) = some id := by
  simp only [responseConnection] at h
  cases named : response.via with
  | some via =>
    rw [named] at h
    exact congrArg some (Except.ok.inj (Prod.mk.inj h).1)
  | none =>
    simp only [named] at h
    rw [run_replyConnection] at h
    cases tracked : (answered.bind (·.2.replyTo)).filter (· ∈ x.table) with
    | some via =>
      simp only [tracked] at h
      exact congrArg some (Except.ok.inj (Prod.mk.inj h).1)
    | none =>
      simp only [tracked] at h
      rw [run_requireRouter] at h
      simp only [Option.none_or]
      cases attached : x.router with
      | none =>
        rw [attached] at h
        cases h
      | some router =>
        rw [attached] at h
        exact congrArg some (Except.ok.inj (Prod.mk.inj h).1)

theorem responseConnection_ok {id : ConnectionId}
    (h : (responseConnection response answered).run x = (.ok id, y)) :
    response.via = some id ∨ id ∈ x.table ∨ x.router = some id := by
  rcases Option.or_eq_some_iff.mp (responseConnection_way h) with named | ⟨-, way⟩
  · exact .inl named
  · rcases Option.or_eq_some_iff.mp way with tracked | ⟨-, attached⟩
    · exact .inr (.inl (of_decide_eq_true (Option.filter_eq_some_iff.mp tracked).2))
    · exact .inr (.inr attached)

/-- Preparing a response binds its reference, and does nothing else. -/
theorem state_prepareResponse (response : Response) (x : ModuleContext) :
    ((prepareResponse response).run x).2 = x.boundBy response := by
  simp only [prepareResponse]
  rw [run_bind, run_answeredReference]
  cases given : x.referenceOf response with
  | error e => exact (boundBy_of_error given).symm
  | ok answered =>
    have labelled := state_responseLabels given
    dsimp only
    rw [run_bind]
    generalize (responseLabels response answered).run x = out at labelled ⊢
    obtain ⟨e | labels, y⟩ := out
    · exact labelled
    · obtain rfl : y = x.boundBy response := labelled
      exact Act.Reads.bind (encodeResponse_reads response answered labels) (fun _ =>
        .bind (responseConnection_reads response answered) fun _ => .pure _) _

/-- The steps of preparing a response. All but the first see the module once the reference is
bound. -/
theorem prepareResponse_steps {p : PreparedResponse}
    (h : (prepareResponse response).run x = (.ok p, y)) :
    ∃ labels, x.referenceOf response = .ok p.answered ∧
      (responseLabels response p.answered).run x = (.ok labels, x.boundBy response) ∧
      (encodeResponse response p.answered labels).run (x.boundBy response) =
        (.ok p.envelope, x.boundBy response) ∧
      (responseConnection response p.answered).run (x.boundBy response) = (.ok p.via, y) := by
  obtain ⟨answered, x₁, found, h⟩ := run_bind_ok h
  rw [run_answeredReference] at found
  obtain ⟨given, rfl⟩ := Prod.mk.inj found
  obtain ⟨labels, x₂, labelled, h⟩ := run_bind_ok h
  obtain ⟨envelope, x₃, encoded, h⟩ := run_bind_ok h
  obtain ⟨via, x₄, addressed, h⟩ := run_bind_ok h
  obtain ⟨same, rfl⟩ := Prod.mk.inj h
  obtain rfl := Except.ok.inj same
  have bound := state_responseLabels given
  rw [labelled] at bound
  obtain rfl : x₂ = x.boundBy response := bound
  have unchanged := encodeResponse_reads response answered labels (x.boundBy response)
  rw [encoded] at unchanged
  obtain rfl : x₃ = x.boundBy response := unchanged
  exact ⟨labels, given, labelled, encoded, addressed⟩

/-- A prepared response knows its reference and where it goes. -/
theorem prepareResponse_ok {p : PreparedResponse}
    (h : (prepareResponse response).run x = (.ok p, y)) :
    x.referenceOf response = .ok p.answered ∧
      (response.via = some p.via ∨ p.via ∈ x.table ∨ x.router = some p.via) := by
  obtain ⟨labels, given, -, -, addressed⟩ := prepareResponse_steps h
  have target := responseConnection_ok addressed
  rw [boundBy_eq] at target
  exact ⟨given, target⟩

/-- A response is written if it is prepared, and its connection takes all of it. -/
def writes (x : ModuleContext) (response : Response) : Bool :=
  match (prepareResponse response).run x with
  | (.ok p, y) => (y.connection? p.via).any fun c => (c.send p.envelope).1.isOk
  | (.error _, _) => false

def settlement (x : ModuleContext) (response : Response) : List (TableCall Reference) :=
  match x.referenceOf response with
  | .ok (some (h, r)) => [settling h r]
  | _ => []

/-- The envelope of a response is on the connection that it was prepared for. -/
def Wrote (x : ModuleContext) (response : Response) (y : ModuleContext) : Prop :=
  ∃ p, ((prepareResponse response).run x).1 = .ok p ∧ x.WroteOn y p.via p.envelope

/-- Binding a reference keeps the rest of it. -/
theorem get_bound {h : Handle} {r : Reference} (got : x.references.get h = .ok r) :
    ∃ message, (x.bound h).references.get h = .ok { r with message } := by
  simp only [bound, binding]
  rw [got]
  obtain ⟨id, message, name, replyTo, response⟩ := r
  cases message with
  | some m => exact ⟨some m, got⟩
  | none =>
    dsimp only
    cases name.bind x.message? with
    | none => exact ⟨none, got⟩
    | some m => exact ⟨some m, ReferenceTable.get_call_modify got _⟩

/-- Settling comes to one call on the references. -/
theorem run_settleAnswered {z : ModuleContext} (given : x.referenceOf response = .ok answered)
    (same : z.references = (x.boundBy response).references) :
    (settleAnswered answered).run z =
      (.ok (), { z with references := ((x.boundBy response).references.callAll
        (x.settlement response)).2 }) := by
  simp only [settlement, given]
  obtain ⟨through, found⟩ | ⟨h, e, -, -, stale⟩ | ⟨h, r, through, got, found⟩ :=
    x.referenceOf_cases response
  · obtain rfl := Except.ok.inj (found.symm.trans given)
    show (Except.ok (), z) = (Except.ok (), { z with references := (x.boundBy response).references })
    rw [← same]
  · cases stale.symm.trans given
  · obtain rfl := Except.ok.inj (found.symm.trans given)
    obtain ⟨message, now⟩ := get_bound got
    have state : x.boundBy response = x.bound h := by
      simp only [boundBy, through]
    rw [state] at same ⊢
    rw [← same] at now ⊢
    exact run_settleReference (r := { r with message }) now

/-- How a response ends, and what becomes of the references. -/
inductive Responds (x : ModuleContext) (response : Response) :
    Except PeerError Unit × ModuleContext → Prop
  | failed {e : PeerError} {y : ModuleContext} (unwritten : x.writes response = false)
      (references : y.references = (x.boundBy response).references) (keeps : x.Keeps y) :
      Responds x response (.error e, y)
  | written {y : ModuleContext} (whole : x.writes response = true)
      (references : y.references =
        ((x.boundBy response).references.callAll (x.settlement response)).2)
      (keeps : x.Keeps y) (wrote : x.Wrote response y) : Responds x response (.ok (), y)

theorem responds (wired : x.Wired)
    (known : ∀ id, response.via = some id → (x.connection? id).isSome = true) :
    x.Responds response ((sendResponse response).run x) := by
  have state := state_prepareResponse response x
  rw [boundBy_eq] at state
  rw [sendResponse_eq, run_bind]
  rcases prepared : (prepareResponse response).run x with ⟨e | p, y⟩
  · obtain rfl : y = _ := (congrArg Prod.snd prepared).symm.trans state
    exact .failed (by simp only [writes, prepared]) rfl (.of_connections rfl rfl rfl)
  · obtain ⟨given, target⟩ := prepareResponse_ok prepared
    obtain rfl : y = _ := (congrArg Prod.snd prepared).symm.trans state
    have there : (x.connection? p.via).isSome = true :=
      target.elim (known p.via) fun on => on.elim (wired.table p.via) (wired.router p.via)
    obtain ⟨c, hc⟩ := Option.isSome_iff_exists.mp there
    generalize hy : ({ x with references := (x.boundBy response).references } : ModuleContext) = y
      at prepared
    have hc' : y.connection? p.via = some c := hy ▸ hc
    have bound : y.references = (x.boundBy response).references := hy ▸ rfl
    have kept : x.Keeps y := hy ▸ .of_connections rfl rfl rfl
    have verdict : x.writes response = (c.send p.envelope).1.isOk := by
      simp only [writes, prepared, hc', Option.any_some]
    have sent := run_sendOn_of_some hc' p.envelope
    dsimp only
    rw [run_bind, sent]
    cases result : (c.send p.envelope).1 with
    | error e =>
      rw [result] at verdict
      exact .failed verdict bound (kept.trans (.setConnection y p.via _))
    | ok =>
      rw [result] at verdict sent
      have wrote := (sendOn_writes (hc' ▸ rfl) sent).2
      have settled := run_settleAnswered (z := y.setConnection p.via (c.send p.envelope).2) given bound
      refine (congrArg (x.Responds response) settled).mpr ?_
      refine .written verdict rfl ((kept.trans (.setConnection y p.via _)).trans
        (.of_connections rfl rfl rfl)) ⟨p, congrArg Prod.fst prepared, ?_⟩
      subst hy
      exact wrote

/-- A response succeeds exactly if it was written. -/
theorem sendResponse_ok_iff (wired : x.Wired)
    (known : ∀ id, response.via = some id → (x.connection? id).isSome = true) :
    (((sendResponse response).run x).1 = .ok () ↔ x.writes response = true) ∧
      (x.writes response = true → x.Wrote response ((sendResponse response).run x).2) := by
  have ends := responds wired known
  generalize (sendResponse response).run x = out at ends ⊢
  cases ends with
  | failed unwritten references keeps =>
    rw [unwritten]
    exact ⟨⟨nofun, nofun⟩, nofun⟩
  | written whole references keeps wrote => exact ⟨iff_of_true rfl whole, fun _ => wrote⟩

def responseCalls (x : ModuleContext) (response : Response) : List (TableCall Reference) :=
  response.reference.elim [] x.binding ++ if x.writes response then x.settlement response else []

theorem references_boundBy (x : ModuleContext) (response : Response) :
    (x.boundBy response).references =
      (x.references.callAll (response.reference.elim [] x.binding)).2 := by
  simp only [boundBy]
  cases response.reference <;> rfl

theorem references_sendResponse (wired : x.Wired)
    (known : ∀ id, response.via = some id → (x.connection? id).isSome = true) :
    ((sendResponse response).run x).2.references =
        (x.references.callAll (x.responseCalls response)).2 ∧
      x.Keeps ((sendResponse response).run x).2 := by
  have ends := responds wired known
  simp only [responseCalls, ReferenceTable.callAll_append, ← references_boundBy]
  generalize (sendResponse response).run x = out at ends ⊢
  cases ends with
  | failed unwritten references keeps =>
    rw [unwritten]
    exact ⟨references, keeps⟩
  | written whole references keeps wrote =>
    rw [whole]
    exact ⟨references, keeps⟩

/-- A response through a reference that is not there is refused, and changes nothing. -/
theorem sendResponse_stale {h : Handle} {e : PeerError} (through : response.reference = some h)
    (stale : x.references.get h = .error e) : (sendResponse response).run x = (.error e, x) := by
  have given : x.referenceOf response = .error e := by
    simp only [referenceOf, through, stale]
    rfl
  rw [sendResponse_eq, run_bind, prepareResponse, run_bind, run_answeredReference, given]

end ModuleContext

end ModuleLink
