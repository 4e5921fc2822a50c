import ModuleLink.Proofs.ResponseSteps

/-! # How long a reference lives

References are created, detached, answered, asked about and released in any order, while anything
else happens to the module. A reference is live until it is freed, released, or answered while it is
detached; an answer counts exactly if it was written. -/
namespace ModuleLink

/-- A call by which references come and go. `reply` and `respondWith` are responses. -/
inductive ReferenceCall
  | create (message : Option Message) (name : Option String) (id : Int32)
  | adopt (query : Envelope) (source : ConnectionId) (name : String)
  | detach (h : Handle)
  | free (h : Handle)
  | release (h : Handle)
  | respond (response : Response)
  | send (q : SendRequest)
  | status (h : Handle) (timeout : Option Span)
  | data (h : Handle) (timeout : Option Span)
  /-- Something else happens, and the module is this afterwards. -/
  | elsewhere (y : ModuleContext)

inductive ReferenceAnswer
  | created (h : Handle)
  | done (result : Except PeerError Unit)
  | number (result : Except PeerError Int32)
  | bytes (result : Except PeerError Bytes)

/-- Two states of the reference to one exchange. -/
structure Reference.Continues (r s : Reference) : Prop where
  id : s.id = r.id
  name : s.name = r.name
  replyTo : s.replyTo = r.replyTo

theorem Reference.Continues.refl (r : Reference) : r.Continues r := ⟨rfl, rfl, rfl⟩

theorem Reference.Continues.trans {r s t : Reference} (h : r.Continues s) (h' : s.Continues t) :
    r.Continues t :=
  ⟨h'.id.trans h.id, h'.name.trans h.name, h'.replyTo.trans h.replyTo⟩

namespace ModuleContext

def call (x : ModuleContext) : ReferenceCall → ReferenceAnswer × ModuleContext
  | .create message name id =>
    let (h, y) := x.createReference message name id
    (.created h, y)
  | .adopt query source name =>
    let (h, y) := x.adoptQuery query source name
    (.created h, y)
  | .detach h =>
    let (result, y) := (detachResponse h).run x
    (.done result, y)
  | .free h =>
    let (result, y) := (freeReference h).run x
    (.done result, y)
  | .release h =>
    let (result, y) := (releaseReference h).run x
    (.done result, y)
  | .respond response =>
    let (result, y) := (sendResponse response).run x
    (.done result, y)
  | .send q =>
    let (result, y) := (sendMessage q).run x
    (.number result, y)
  | .status h timeout =>
    let (result, y) := (referenceStatus h timeout).run x
    (.number result, y)
  | .data h timeout =>
    let (result, y) := (referenceData h timeout).run x
    (.bytes result, y)
  | .elsewhere y => (.done (.ok ()), y)

def callAll (x : ModuleContext) (calls : List ReferenceCall) : ModuleContext :=
  calls.foldl (fun x c => (x.call c).2) x

/-- Responses go over connections that are there, and what happens elsewhere leaves the references
alone and loses no connection that is still needed. -/
def Permits (x : ModuleContext) : ReferenceCall → Prop
  | .respond response => ∀ id, response.via = some id → (x.connection? id).isSome = true
  | .elsewhere y => y.references = x.references ∧ (x.Wired → y.Wired)
  | _ => True

def PermitsAll (x : ModuleContext) : List ReferenceCall → Prop
  | [] => True
  | c :: calls => x.Permits c ∧ (x.call c).2.PermitsAll calls

def adopted (x : ModuleContext) (query : Envelope) (source : ConnectionId) (name : String) :
    Reference where
  id := query.messageRef
  message := x.message? name
  name := some name
  replyTo := some source
  response := if x.settings.detachedResponses then .detached else .pending

def begun (x : ModuleContext) : ReferenceCall → Option Reference
  | .create message name id => some { id, message, name }
  | .adopt query source name => some (x.adopted query source name)
  | _ => none

/-- What a call makes of a reference that is live: the response that it has then, or nothing if the
reference ends. -/
def fate (x : ModuleContext) (h : Handle) (response : ResponseState) :
    ReferenceCall → Option ResponseState
  | .free g | .release g => if g = h then none else some response
  | .detach g => some (if g = h then .detached else response)
  | .respond r =>
    if r.reference = some h ∧ x.writes r = true then
      if response = .detached then none else some .responded
    else some response
  | _ => some response

def standing (h : Handle) : ModuleContext → ResponseState → List ReferenceCall → Option ResponseState
  | _, response, [] => some response
  | x, response, c :: calls =>
    (x.fate h response c).bind fun response => standing h (x.call c).2 response calls

def tableCalls (x : ModuleContext) : ReferenceCall → List (TableCall Reference)
  | .create message name id => [.acquire { id, message, name }]
  | .adopt query source name => [.acquire (x.adopted query source name)]
  | .detach h => [.modify h fun r => { r with response := .detached }]
  | .free h | .release h => [.release h]
  | .respond response => x.responseCalls response
  | .data h _ => if (x.message? dataQuery).isSome then x.binding h else []
  | .send _ | .status .. | .elsewhere _ => []

def tableHistory (x : ModuleContext) : List ReferenceCall → List (TableStep Reference)
  | [] => []
  | c :: calls =>
    (x.references.callAll (x.tableCalls c)).1 ++ (x.call c).2.tableHistory calls

variable {x : ModuleContext} {c : ReferenceCall} {h : Handle} {r : Reference}
  {calls more : List ReferenceCall}

theorem callAll_append : x.callAll (calls ++ more) = (x.callAll calls).callAll more :=
  List.foldl_append ..

theorem PermitsAll.append (h : x.PermitsAll (calls ++ more)) :
    x.PermitsAll calls ∧ (x.callAll calls).PermitsAll more := by
  induction calls generalizing x with
  | nil => exact ⟨trivial, h⟩
  | cons c calls ih =>
    obtain ⟨first, rest⟩ := ih h.2
    exact ⟨⟨h.1, first⟩, rest⟩

/-- A call does to the references what it does to the table, and keeps the connections that are
needed. -/
theorem references_call (wired : x.Wired) (permits : x.Permits c) :
    (x.call c).2.references = (x.references.callAll (x.tableCalls c)).2 ∧ (x.call c).2.Wired := by
  have untouched (references : ReferenceTable Reference) :
      x.Keeps { x with references } := .of_connections rfl rfl rfl
  cases c with
  | create message name id => exact ⟨rfl, (untouched _).wired wired⟩
  | adopt query source name => exact ⟨rfl, (untouched _).wired wired⟩
  | detach h =>
    simp only [call, detachResponse, run_editReference]
    exact ⟨rfl, (untouched _).wired wired⟩
  | free h =>
    simp only [call, run_freeReference]
    exact ⟨rfl, (untouched _).wired wired⟩
  | release h =>
    obtain ⟨references, keeps⟩ := references_releaseReference h x
    exact ⟨references, keeps.wired wired⟩
  | respond response =>
    obtain ⟨references, keeps⟩ := references_sendResponse wired permits
    exact ⟨references, keeps.wired wired⟩
  | send q =>
    obtain ⟨references, keeps⟩ := sendMessage_spares q x
    exact ⟨references, keeps.wired wired⟩
  | status h timeout =>
    obtain ⟨references, keeps⟩ := referenceStatus_spares h timeout x
    exact ⟨references, keeps.wired wired⟩
  | data h timeout =>
    obtain ⟨references, keeps⟩ := references_referenceData h timeout x
    exact ⟨references, keeps.wired wired⟩
  | elsewhere y => exact ⟨permits.1, permits.2 wired⟩

/-- Calls on the table leave a reference with a response, or end with its release. -/
inductive Treats (h : Handle) (r : Reference) :
    List (TableCall Reference) → Option ResponseState → Prop
  | kept {cs : List (TableCall Reference)} {s : Reference} (spared : ∀ d ∈ cs, d ≠ .release h)
      (now : cs.foldl (TableCall.applied h) r = s) (same : r.Continues s) :
      Treats h r cs (some s.response)
  | ended {cs : List (TableCall Reference)} (spared : ∀ d ∈ cs, d ≠ .release h) :
      Treats h r (cs ++ [.release h]) none

theorem Treats.nothing (h : Handle) (r : Reference) : Treats h r [] (some r.response) :=
  .kept (fun _ hd => absurd hd List.not_mem_nil) rfl (.refl r)

theorem Treats.other {d : TableCall Reference} (ne : d.handle? ≠ some h) :
    Treats h r [d] (some r.response) := by
  refine .kept (fun e he => ?_) ?_ (.refl r)
  · rintro rfl
    exact ne (List.mem_singleton.mp he ▸ rfl)
  · cases d with
    | acquire | get | release => rfl
    | modify g edit => exact if_neg fun same => ne (congrArg some same)

theorem Treats.edits {edit : Reference → Reference} (same : r.Continues (edit r)) :
    Treats h r [.modify h edit] (some (edit r).response) :=
  .kept (fun _ hd => List.mem_singleton.mp hd ▸ nofun) (if_pos rfl) same

/-- Binding a reference changes no reference's response. -/
theorem treats_binding (x : ModuleContext) (g h : Handle) (r : Reference) :
    Treats h r (x.binding g) (some r.response) := by
  simp only [binding]
  cases x.references.get g with
  | error e => exact .nothing h r
  | ok s =>
    dsimp only
    split
    · by_cases same : g = h
      · subst same
        exact .edits ⟨rfl, rfl, rfl⟩
      · exact .other fun through => same (Option.some.inj through)
    · exact .nothing h r

theorem Treats.append {cs more : List (TableCall Reference)} {response : ResponseState}
    {outcome : Option ResponseState} (first : Treats h r cs (some response))
    (rest : ∀ s, r.Continues s → s.response = response → Treats h s more outcome) :
    Treats h r (cs ++ more) outcome := by
  cases first with
  | @kept _ s spared now same =>
    cases rest s same rfl with
    | kept spared' now' same' =>
      refine .kept (fun d hd => ?_) (by rw [List.foldl_append, now, now']) (same.trans same')
      exact (List.mem_append.mp hd).elim (spared d) (spared' d)
    | ended spared' =>
      rw [← List.append_assoc]
      exact .ended fun d hd => (List.mem_append.mp hd).elim (spared d) (spared' d)

/-- Settling frees a detached reference, and marks another one. -/
theorem treats_settling (h : Handle) (r s : Reference) :
    Treats h s [settling h r] (if r.response = .detached then none else some .responded) := by
  have marked : Treats h s [.modify h fun r => { r with response := .responded }]
      (some .responded) := .edits ⟨rfl, rfl, rfl⟩
  simp only [settling]
  cases r.response with
  | pending | responded => exact marked
  | detached => exact .ended fun _ hd => absurd hd List.not_mem_nil

theorem handle_settling (h : Handle) (r : Reference) : (settling h r).handle? = some h := by
  simp only [settling]
  cases r.response <;> rfl

/-- A response keeps a reference, or ends it. -/
theorem treats_response (got : x.references.get h = .ok r) (response : Response) :
    Treats h r (x.responseCalls response) (x.fate h r.response (.respond response)) := by
  have binds : Treats h r (response.reference.elim [] x.binding) (some r.response) := by
    cases response.reference with
    | none => exact .nothing h r
    | some g => exact x.treats_binding g h r
  refine binds.append fun s _ same => ?_
  simp only [fate]
  by_cases whole : x.writes response = true
  · rw [if_pos whole]
    by_cases through : response.reference = some h
    · have settles : x.settlement response = [settling h r] := by
        simp only [settlement, referenceOf, through, got]
        rfl
      rw [if_pos ⟨through, whole⟩, settles]
      exact treats_settling h r s
    · rw [if_neg fun both => through both.1, ← same]
      simp only [settlement]
      obtain ⟨-, given⟩ | ⟨g, e, -, -, given⟩ | ⟨g, t, through', -, given⟩ :=
        x.referenceOf_cases response
      · rw [given]
        exact .nothing h s
      · rw [given]
        exact .nothing h s
      · rw [given]
        exact .other fun this => through (through'.trans (handle_settling g t ▸ this))
  · rw [if_neg whole, if_neg fun both => whole both.2, ← same]
    exact .nothing h s

/-- What a call does to the table is what it makes of a live reference. -/
theorem treats_call (got : x.references.get h = .ok r) (c : ReferenceCall) :
    Treats h r (x.tableCalls c) (x.fate h r.response c) := by
  have releases (g : Handle) :
      Treats h r [.release g] (if g = h then none else some r.response) := by
    by_cases same : g = h
    · subst same
      rw [if_pos rfl]
      exact .ended fun _ hd => absurd hd List.not_mem_nil
    · rw [if_neg same]
      exact .other fun through => same (Option.some.inj through)
  cases c with
  | create | adopt => exact .other nofun
  | free g | release g => exact releases g
  | detach g =>
    by_cases same : g = h
    · subst same
      simp only [tableCalls, fate, if_true]
      exact .edits ⟨rfl, rfl, rfl⟩
    · simp only [tableCalls, fate, if_neg same]
      exact .other fun through => same (Option.some.inj through)
  | respond response => exact treats_response got response
  | data g timeout =>
    simp only [tableCalls, fate]
    split
    · exact x.treats_binding g h r
    · exact .nothing h r
  | send | status | elsewhere => exact .nothing h r

theorem tableHistory_of {past : List (TableStep Reference)} (run : TableHistory past x.references)
    (wired : x.Wired) (permits : x.PermitsAll calls) :
    TableHistory (past ++ x.tableHistory calls) (x.callAll calls).references ∧
      (x.callAll calls).Wired := by
  induction calls generalizing x past with
  | nil =>
    rw [tableHistory, List.append_nil]
    exact ⟨run, wired⟩
  | cons c calls ih =>
    obtain ⟨references, wired'⟩ := references_call wired permits.1
    have first := run.callAll (x.tableCalls c)
    rw [← references] at first
    rw [tableHistory, ← List.append_assoc]
    exact ih first wired' permits.2

/-- What became of a live reference, after a history of the table. -/
inductive Outlives (h : Handle) (r : Reference) (past since : List (TableStep Reference)) :
    Option ResponseState → Prop
  | live {s : Reference} (opens : Opens (past ++ since) h s) (same : r.Continues s) :
      Outlives h r past since (some s.response)
  | gone {s : Reference} (released : .released h s ∈ since) : Outlives h r past since none

/-- A reference that is live is there. -/
theorem Outlives.get {past since : List (TableStep Reference)} {t : ReferenceTable Reference}
    {response : ResponseState} (fate : Outlives h r past since (some response))
    (run : TableHistory (past ++ since) t) :
    ∃ s, t.get h = .ok s ∧ r.Continues s ∧ s.response = response := by
  cases fate with
  | @live s opens same => exact ⟨s, (run.records.get_eq_ok_iff h s).mpr opens, same, rfl⟩

/-- One that is gone is refused; only for this the number of releases matters. -/
theorem Outlives.stale {past since : List (TableStep Reference)} {t : ReferenceTable Reference}
    (fate : Outlives h r (past ++ [.acquired r h]) since none)
    (run : TableHistory (past ++ [.acquired r h] ++ since) t)
    (few : releasesOf h.index since < UInt32.size) : t.get h = .error (.staleReference h) := by
  rw [← List.append_cons] at run
  cases fate with
  | gone released => exact run.get_of_released released few

/-- A live reference goes through a run of calls as its standing says. -/
theorem outlives {past : List (TableStep Reference)} (run : TableHistory past x.references)
    (opens : Opens past h r) (wired : x.Wired) (permits : x.PermitsAll calls) :
    Outlives h r past (x.tableHistory calls) (standing h x r.response calls) := by
  induction calls generalizing x past r with
  | nil =>
    refine .live ?_ (.refl r)
    rwa [tableHistory, List.append_nil]
  | cons c calls ih =>
    -- The history so far says that the handle is honoured, so the call is one on a live reference.
    have got := (run.records.get_eq_ok_iff h r).mpr opens
    have treats := treats_call got c
    obtain ⟨references, wired'⟩ := references_call wired permits.1
    have first := run.callAll (x.tableCalls c)
    rw [← references] at first
    simp only [standing, tableHistory]
    generalize x.tableCalls c = cs at treats first ⊢
    generalize x.fate h r.response c = outcome at treats ⊢
    cases treats with
    | @kept _ s spared now same =>
      have still := opens.callAll run spared
      rw [now] at still
      have rest := ih first still wired' permits.2
      rw [Option.bind_some]
      generalize standing h (x.call c).2 s.response calls = outcome at rest ⊢
      cases rest with
      | live opens' same' =>
        refine .live ?_ (same.trans same')
        rwa [← List.append_assoc]
      | gone released => exact .gone (List.mem_append_right _ released)
    | @ended ds spared =>
      have still := opens.callAll run spared
      refine .gone (s := ds.foldl (TableCall.applied h) r) (List.mem_append_left _ ?_)
      rw [ReferenceTable.callAll_append, ReferenceTable.callAll_singleton]
      refine List.mem_append_right _ (List.mem_singleton.mpr ?_)
      exact (still.released (run.callAll ds)).symm

theorem begun_of_created (created : (x.call c).1 = .created h) :
    ∃ r, x.begun c = some r ∧ h = (x.references.acquire r).1 ∧
      x.tableCalls c = [.acquire r] := by
  cases c with
  | create message name id => exact ⟨_, rfl, (ReferenceAnswer.created.inj created).symm, rfl⟩
  | adopt query source name => exact ⟨_, rfl, (ReferenceAnswer.created.inj created).symm, rfl⟩
  | detach | free | release | respond | send | status | data | elsewhere => cases created

/-- A reference that was created keeps its id, its name and the connection that it answers to. It is
live, with the response that its standing says, until it is freed, released, or answered in writing
while it is detached; after that a response through its handle is refused and changes nothing. A
response succeeds exactly if its envelope was written whole. The slot must not be released so often
that the generations come round. -/
theorem stands_after {before after : List ReferenceCall} (new : x.references = {}) (wired : x.Wired)
    (permits : x.PermitsAll (before ++ c :: after))
    (created : ((x.callAll before).call c).1 = .created h)
    (few : releasesOf h.index (((x.callAll before).call c).2.tableHistory after) < UInt32.size) :
    ∃ r, (x.callAll before).begun c = some r ∧
      let z := x.callAll (before ++ c :: after)
      let stands := standing h ((x.callAll before).call c).2 r.response after
      (∀ response, stands = some response →
        ∃ s, z.references.get h = .ok s ∧ r.Continues s ∧ s.response = response) ∧
      (stands = none → z.references.get h = .error (.staleReference h) ∧
        ∀ response, response.reference = some h →
          (sendResponse response).run z = (.error (.staleReference h), z)) ∧
      ∀ response, z.Permits (.respond response) →
        (((sendResponse response).run z).1 = .ok () ↔ z.writes response = true) ∧
        (z.writes response = true → z.Wrote response ((sendResponse response).run z).2) := by
  obtain ⟨permits, permits'⟩ := permits.append
  have start : TableHistory [] x.references := new ▸ .new
  obtain ⟨run, wired⟩ := tableHistory_of start wired permits
  generalize [] ++ x.tableHistory before = past at run
  rw [callAll_append]
  generalize x.callAll before = y at created few permits' run wired ⊢
  obtain ⟨r, begun, rfl, acquires⟩ := begun_of_created created
  obtain ⟨references, wired'⟩ := references_call wired permits'.1
  have entered := run.call (.acquire r)
  have opens : Opens (past ++ [(y.references.call (.acquire r)).1]) (y.references.acquire r).1 r := by
    cases (run.records.call (.acquire r)).1 with
    | acquired _ _ generation => exact .acquired r generation
  rw [acquires] at references
  have entered : TableHistory _ (y.call c).2.references := references ▸ entered
  obtain ⟨ends, wired''⟩ := tableHistory_of entered wired' permits'.2
  have fate := outlives entered opens wired' permits'.2
  refine ⟨r, begun, fun response stands => ?_, fun stands => ?_, fun response known => ?_⟩
  · rw [stands] at fate
    exact fate.get ends
  · rw [stands] at fate
    have stale := fate.stale ends few
    exact ⟨stale, fun response through => sendResponse_stale through stale⟩
  · exact sendResponse_ok_iff wired'' known

def informed : ModuleContext :=
  quiet.registerMessage ⟨"where", 6, .query, none, some .text, true, []⟩

def adoption : List ReferenceCall × ReferenceCall :=
  ([.create none (some "elsewhere") 5, .free ⟨0, 0⟩], .adopt (.plain 1 63 []) 0 "where")

/-- The adopted query is answered three times: under a name that nobody knows, then in writing, and in
writing again once it is detached. -/
def answeredThrice : List ReferenceCall := [
  .respond { messageClass := .reply, reference := some ⟨0, 1⟩, relabelAs := some "nowhere" },
  .respond { messageClass := .reply, reference := some ⟨0, 1⟩, data := some [104, 105] },
  .detach ⟨0, 1⟩, .respond { messageClass := .success, reference := some ⟨0, 1⟩ }]

theorem stands_after_answeredThrice :
    (∃ s, (informed.callAll (adoption.1 ++ adoption.2 :: answeredThrice.take 3)).references.get ⟨0, 1⟩ =
        .ok s ∧ s.id = 63 ∧ s.replyTo = some 0 ∧ s.response = .detached) ∧
      (informed.callAll (adoption.1 ++ adoption.2 :: answeredThrice)).references.get ⟨0, 1⟩ =
        .error (.staleReference ⟨0, 1⟩) := by
  have wired : informed.Wired := ⟨by decide, fun id routed => Option.some.inj routed ▸ rfl⟩
  have permits : informed.PermitsAll (adoption.1 ++ adoption.2 :: answeredThrice) :=
    ⟨trivial, trivial, trivial, nofun, nofun, trivial, nofun, trivial⟩
  have permits' : informed.PermitsAll (adoption.1 ++ adoption.2 :: answeredThrice.take 3) :=
    ⟨trivial, trivial, trivial, nofun, nofun, trivial, trivial⟩
  obtain ⟨r, begun, lives, -, -⟩ := stands_after rfl wired permits' rfl (by decide +kernel)
  obtain ⟨q, begun', -, ends, -⟩ := stands_after rfl wired permits rfl (by decide +kernel)
  obtain rfl : _ = r := Option.some.inj begun
  obtain rfl : _ = q := Option.some.inj begun'
  have detached : standing ⟨0, 1⟩ ((informed.callAll adoption.1).call adoption.2).2 .pending
      (answeredThrice.take 3) = some .detached := by decide +kernel
  have freed : standing ⟨0, 1⟩ ((informed.callAll adoption.1).call adoption.2).2 .pending
      answeredThrice = none := by decide +kernel
  obtain ⟨s, got, same, response⟩ := lives .detached detached
  exact ⟨⟨s, got, same.id, same.replyTo, response⟩, (ends freed).1⟩

end ModuleContext

end ModuleLink
