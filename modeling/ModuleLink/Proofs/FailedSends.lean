import Mathlib.Tactic.Common
import ModuleLink.Proofs.ResponseSteps

/-! # Sends that are refused before anything is written

A request is refused for its router, its message, its reference or its data before the first byte of
it is written, and only a write fails with a transport error. So an error of any other kind leaves the
module as it was, but for a message reference that was taken and a reference that was bound to the
message of its name. -/
namespace ModuleLink

def PeerError.isTransport : PeerError → Bool
  | .transport _ | .frame (.transport _) => true
  | _ => false

/-- A reference as it was or, if it was not bound, bound to the message of its name. -/
inductive Reference.Binds (x : ModuleContext) (r : Reference) : Reference → Prop
  | same : Binds x r r
  | named {name : String} {m : Message} (unbound : r.message = none) (called : r.name = some name)
      (found : x.message? name = some m) : Binds x r { r with message := some m }

namespace ModuleContext

variable {x y : ModuleContext} {q : SendRequest} {response : Response} {e : PeerError}

/-- A module that only took a message reference, or bound a reference to the message of its name. -/
structure Spared (x y : ModuleContext) (through : Option Handle) : Prop where
  rest : y = { x with nextSendRef := y.nextSendRef, references := y.references }
  nextSendRef : y.nextSendRef = x.nextSendRef ∨ y.nextSendRef = x.takeSendRef.1
  slots : y.references = { x.references with slots := y.references.slots }
  others : ∀ h, through ≠ some h → y.references.get h = x.references.get h
  stale : ∀ h e, x.references.get h = .error e → y.references.get h = .error e
  kept : ∀ h r, x.references.get h = .ok r → ∃ r', y.references.get h = .ok r' ∧ r.Binds x r'

theorem Spared.of_references (through : Option Handle)
    (rest : y = { x with nextSendRef := y.nextSendRef })
    (next : y.nextSendRef = x.nextSendRef ∨ y.nextSendRef = x.takeSendRef.1) :
    x.Spared y through := by
  have references : y.references = x.references := by rw [rest]
  refine ⟨?_, next, ?_, ?_, ?_, ?_⟩
  · rw [references]
    exact rest
  · rw [references]
  · intro h _
    rw [references]
  · intro h e missing
    rw [references]
    exact missing
  · intro h r got
    rw [references]
    exact ⟨r, got, .same⟩

theorem Spared.refl (x : ModuleContext) (through : Option Handle) : x.Spared x through :=
  .of_references through rfl (.inl rfl)

theorem spared_takeRef (x : ModuleContext) (q : SendRequest) : x.Spared (x.takeRef q).2 none := by
  apply Spared.of_references none (x.takeRef_eq q)
  simp only [takeRef]
  cases q.messageRef with
  | none => exact .inr rfl
  | some r => exact .inl rfl

/-- A reference is bound if it is there, was not bound yet and the message of its name is known. -/
theorem binding_cases (x : ModuleContext) (h : Handle) :
    x.binding h = [] ∨ ∃ r name m, x.references.get h = .ok r ∧ r.message = none ∧
      r.name = some name ∧ x.message? name = some m ∧
      x.binding h = [.modify h fun r => { r with message := some m }] := by
  simp only [binding]
  cases x.references.get h with
  | error e => exact .inl rfl
  | ok r =>
    obtain ⟨id, message, name, replyTo, response⟩ := r
    dsimp only
    cases message with
    | some m => exact .inl rfl
    | none =>
      cases name with
      | none => exact .inl rfl
      | some name =>
        dsimp only [Option.bind_some]
        cases found : x.message? name with
        | none => exact .inl rfl
        | some m => exact .inr ⟨_, name, m, rfl, rfl, rfl, found, rfl⟩

theorem spared_bound (x : ModuleContext) (h : Handle) : x.Spared (x.bound h) (some h) := by
  obtain unbound | ⟨r, name, m, got, unbound, called, found, binds⟩ := x.binding_cases h
  · rw [bound_eq unbound]
    exact .refl x (some h)
  · have edited : (x.bound h).references =
        (x.references.call (.modify h fun r => { r with message := some m })).2 := by
      rw [bound, binds]
      rfl
    have others : ∀ g, g ≠ h → (x.bound h).references.get g = x.references.get g := by
      intro g other
      rw [edited]
      exact ReferenceTable.get_call_modify_of_ne other _
    refine ⟨rfl, .inl rfl, ?_, ?_, ?_, ?_⟩
    · rw [edited]
      exact ReferenceTable.call_modify_eq x.references h _
    · intro g other
      exact others g fun same => other (congrArg some same.symm)
    · intro g e stale
      have other : g ≠ h := by
        rintro rfl
        cases got.symm.trans stale
      exact (others g other).trans stale
    · intro g s there
      by_cases same : g = h
      · subst same
        obtain rfl := Except.ok.inj (got.symm.trans there)
        refine ⟨_, ?_, .named unbound called found⟩
        rw [edited]
        exact ReferenceTable.get_call_modify got _
      · exact ⟨s, (others g same).trans there, .same⟩

theorem spared_boundBy (x : ModuleContext) (response : Response) :
    x.Spared (x.boundBy response) response.reference := by
  simp only [boundBy]
  cases response.reference with
  | none => exact .refl x none
  | some h => exact x.spared_bound h

theorem sendOn_error {id : ConnectionId} {m : Envelope} (h : (sendOn id m).run x = (.error e, y)) :
    e.isTransport = true := by
  rw [run_sendOn] at h
  cases hc : x.connection? id with
  | none =>
    rw [hc] at h
    cases h
  | some c =>
    rw [hc] at h
    have failed := (Prod.mk.inj h).1
    simp only [Connection.send] at failed
    rcases hw : c.writeVectored m.segments m.wireLength with ⟨cause | _, d⟩
    · rw [hw] at failed
      cases failed
      rfl
    · rw [hw] at failed
      cases failed

theorem deliver_error {m : Envelope} {hs : List Handler}
    (h : (deliver m hs).forget.run x = (.error e, y)) : e.isTransport = true := by
  induction hs generalizing x with
  | nil => cases h
  | cons handler hs ih =>
    rw [deliver_cons] at h
    cases live : x.liveConnection handler with
    | none =>
      rw [live] at h
      exact ih h
    | some id =>
      rw [live] at h
      dsimp only at h
      rcases sent : (sendOn id (m.withIntent handler.intent)).run x with ⟨cause | _, z⟩
      · rw [sent] at h
        dsimp only at h
        split at h
        · exact ih h
        · obtain rfl := Except.error.inj (Prod.mk.inj h).1
          exact sendOn_error sent
      · rw [sent] at h
        exact ih h

/-- A message that is refused for another reason than a failed write was not prepared. -/
theorem sendMessage_refused (h : (sendMessage q).run x = (.error e, y))
    (refused : e.isTransport = false) : (prepareMessage q).run x = (.error e, y) := by
  rw [run_sendMessage] at h
  rcases prepared : (prepareMessage q).run x with ⟨cause | out, z⟩
  · rw [prepared] at h
    cases h
    rfl
  · rw [prepared] at h
    dsimp only at h
    split at h
    · rename_i cause w written
      have same : cause = e := Except.error.inj (Prod.mk.inj h).1
      have failed : cause.isTransport = true := by
        split at written
        · exact deliver_error written
        · exact sendOn_error written
      rw [same, refused] at failed
      cases failed
    · cases h

/-- A response that is refused for another reason than a failed write was not prepared. -/
theorem sendResponse_refused (h : (sendResponse response).run x = (.error e, y))
    (refused : e.isTransport = false) : (prepareResponse response).run x = (.error e, y) := by
  rw [sendResponse_eq, run_bind] at h
  rcases prepared : (prepareResponse response).run x with ⟨cause | p, z⟩
  · rw [prepared] at h
    cases h
    rfl
  · have bound := state_prepareResponse response x
    rw [prepared] at h bound
    obtain rfl : z = x.boundBy response := bound
    dsimp only at h
    rw [run_bind] at h
    have spared := (sendOn_spares p.via p.envelope (x.boundBy response)).1
    rcases sent : (sendOn p.via p.envelope).run (x.boundBy response) with ⟨cause | _, w⟩
    · rw [sent] at h
      obtain rfl := Except.error.inj (Prod.mk.inj h).1
      exact absurd ((sendOn_error sent).symm.trans refused) nofun
    · rw [sent] at h spared
      dsimp only at h
      rw [run_settleAnswered (prepareResponse_ok prepared).1 spared] at h
      cases h

/-- A message or a response that fails for any other reason than its transport changes nothing but
the next message reference, by one, and the message of the reference that it is through. -/
theorem spared_of_refused (x : ModuleContext) :
    (∀ q e y, (sendMessage q).run x = (.error e, y) → e.isTransport = false → x.Spared y none) ∧
    (∀ response e y, (sendResponse response).run x = (.error e, y) → e.isTransport = false →
      x.Spared y response.reference) := by
  constructor
  · intro q e y h refused
    have state := state_prepareMessage q x
    rw [sendMessage_refused h refused] at state
    obtain rfl | rfl := state
    · exact .refl y none
    · exact x.spared_takeRef q
  · intro response e y h refused
    have state := state_prepareResponse response x
    rw [sendResponse_refused h refused] at state
    obtain rfl : y = x.boundBy response := state
    exact x.spared_boundBy response

/-- A message whose data is announced with one byte more than there is. -/
def miscountedMessage : Message :=
  { name := "m", id := 5, messageClass := .query, messageFormat := some .miscounting, direct := true }

/-- A module that came to know a message after a query of that name was adopted. -/
def latecomer : ModuleContext :=
  (adoptQuery quiet (.plain 5 9 []) 0 "m").2.registerMessage miscountedMessage

def miscountedRequest : SendRequest := { message := "m", payload := some [7] }

def unnamedResponse : Response :=
  { messageClass := .relabelled, reference := some ⟨0, 0⟩, relabelAs := some "nobody" }

theorem spared_of_refused_latecomer :
    ((sendMessage miscountedRequest).run latecomer).1 =
        .error (.frame (.format (.sizeMismatch "lying" 2 1))) ∧
      ((sendMessage miscountedRequest).run latecomer).2.nextSendRef = 1 ∧
      latecomer.Spared ((sendMessage miscountedRequest).run latecomer).2 none ∧
      ((sendResponse unnamedResponse).run latecomer).1 = .error (.undefinedMessage "nobody") ∧
      (((sendResponse unnamedResponse).run latecomer).2.references.get ⟨0, 0⟩).toOption.map
        (·.message.map Message.name) = some (some "m") ∧
      latecomer.Spared ((sendResponse unnamedResponse).run latecomer).2 (some ⟨0, 0⟩) := by
  have miscounted : ((sendMessage miscountedRequest).run latecomer).1 =
      .error (.frame (.format (.sizeMismatch "lying" 2 1))) := by decide +kernel
  have unnamed : ((sendResponse unnamedResponse).run latecomer).1 =
      .error (.undefinedMessage "nobody") := by decide +kernel
  refine ⟨miscounted, by decide +kernel, ?_, unnamed, by decide +kernel, ?_⟩
  · exact (spared_of_refused latecomer).1 _ _ _ (Prod.ext miscounted rfl) rfl
  · exact (spared_of_refused latecomer).2 unnamedResponse _ _ (Prod.ext unnamed rfl) rfl

end ModuleContext

end ModuleLink
