import ModuleLink.SenderThreads
import ModuleLink.Proofs.EnvelopeRoundTrip
import ModuleLink.Proofs.HandlerDestinations

/-! # What one step of a sending thread does

A step may take a message reference, send on one connection, or tear one down. The rest of the module
stays as it is, and what is left of the message names the same handlers but those torn down. -/
namespace ModuleLink

def ModuleContext.taken (x : ModuleContext) (id : ConnectionId) (m : Envelope) :
    List (ConnectionId × Envelope) :=
  match x.connection? id with
  | some c => if (c.send m).1.isOk then [(id, m)] else []
  | none => []

namespace SendPhase

/-- The connection that was open when the thread tested it. -/
def standsOn : SendPhase → Option ConnectionId
  | write _ id _ _ | tearDown _ id _ _ => some id
  | _ => none

def tears (x : ModuleContext) : SendPhase → Option ConnectionId
  | tearDown _ id _ _ => if id ∈ x.table then some id else none
  | _ => none

def writes (x : ModuleContext) : SendPhase → List (ConnectionId × Envelope)
  | route out => x.taken out.router (out.envelope.withIntent out.message.id)
  | write out id intent _ => x.taken id (out.envelope.withIntent intent)
  | _ => []

/-- The router is gone, or the message that goes to it is not taken. -/
def isUnrouted (x : ModuleContext) : SendPhase → Bool
  | prepare _ => x.router = none
  | route out =>
    !((ModuleContext.sendOn out.router (out.envelope.withIntent out.message.id)).run x).1.isOk
  | _ => false

/-- A bound on the steps to come, for a message with so many handlers. -/
def stepsLeft (handlers : Nat) : SendPhase → Nat
  | prepare _ => 3 * handlers + 2
  | route _ => 1
  | visit _ hs => 3 * hs.length + 1
  | write _ _ _ hs => 3 * hs.length + 3
  | tearDown _ _ _ hs => 3 * hs.length + 2
  | done _ => 0

/-- What a step does to the module. -/
inductive Acts (p : SendPhase) (x : ModuleContext) : ModuleContext → Prop
  | notes {next : Int32} (tears : p.tears x = none) (writes : p.writes x = []) :
      Acts p x { x with nextSendRef := next }
  | sends {id : ConnectionId} {c : Connection} {m : Envelope} (hc : x.connection? id = some c)
      (tears : p.tears x = none)
      (writes : p.writes x = if (c.send m).1.isOk then [(id, m)] else []) :
      Acts p x (x.setConnection id (c.send m).2)
  | tearsDown {id : ConnectionId} (listed : id ∈ x.table) (tears : p.tears x = some id)
      (writes : p.writes x = []) : Acts p x (x.handleClosed id).2

private theorem Acts.sendOn {p : SendPhase} {x : ModuleContext} {id : ConnectionId} {m : Envelope}
    (tears : p.tears x = none) (writes : p.writes x = x.taken id m) :
    p.Acts x ((ModuleContext.sendOn id m).run x).2 := by
  unfold ModuleContext.taken at writes
  rw [ModuleContext.run_sendOn]
  cases hc : x.connection? id with
  | none =>
    rw [hc] at writes
    exact @Acts.notes p x x.nextSendRef tears writes
  | some c =>
    rw [hc] at writes
    exact .sends hc tears writes

theorem step_prepare (q : SendRequest) (x : ModuleContext) :
    (prepare q).step x =
      match (ModuleContext.prepareMessage q).run x with
      | (.error e, y) => (done (.error e), y)
      | (.ok out, y) =>
        (if out.message.deliversDirectly then visit out out.message.handlers.reverse else route out,
          y) :=
  rfl

theorem step_route (out : ModuleContext.Outgoing) (x : ModuleContext) :
    (route out).step x =
      match (ModuleContext.sendOn out.router (out.envelope.withIntent out.message.id)).run x with
      | (.error e, y) => (done (.error e), y)
      | (.ok (), y) => (done (.ok out.messageRef), y) :=
  rfl

theorem step_write (out : ModuleContext.Outgoing) (id : ConnectionId) (intent : Int32)
    (hs : List Handler) (x : ModuleContext) :
    (write out id intent hs).step x =
      match (ModuleContext.sendOn id (out.envelope.withIntent intent)).run x with
      | (.ok (), y) => (visit out hs, y)
      | (.error e, y) => (if e.isBrokenPipe then tearDown out id e hs else done (.error e), y) :=
  rfl

theorem acts (p : SendPhase) (x : ModuleContext) : p.Acts x (p.step x).2 := by
  have rests : ∀ p : SendPhase, p.tears x = none → p.writes x = [] → p.Acts x x :=
    fun p => @Acts.notes p x x.nextSendRef
  cases p with
  | prepare q =>
    have same : ((prepare q).step x).2 = ((ModuleContext.prepareMessage q).run x).2 := by
      rw [step_prepare]
      rcases (ModuleContext.prepareMessage q).run x with ⟨_ | _, _⟩ <;> rfl
    obtain ⟨next, hn⟩ := ModuleContext.prepareMessage_prepares q x
    rw [same, hn]
    exact .notes rfl rfl
  | route out =>
    have same : ((route out).step x).2 = ((ModuleContext.sendOn out.router
        (out.envelope.withIntent out.message.id)).run x).2 := by
      rw [step_route]
      rcases (ModuleContext.sendOn out.router _).run x with ⟨_ | _, _⟩ <;> rfl
    rw [same]
    exact .sendOn rfl rfl
  | visit out hs =>
    cases hs with
    | nil => exact rests _ rfl rfl
    | cons h hs =>
      simp only [step]
      cases x.liveConnection h <;> exact rests _ rfl rfl
  | write out id intent hs =>
    have same : ((write out id intent hs).step x).2 = ((ModuleContext.sendOn id
        (out.envelope.withIntent intent)).run x).2 := by
      rw [step_write]
      rcases (ModuleContext.sendOn id _).run x with ⟨_ | _, _⟩ <;> rfl
    rw [same]
    exact .sendOn rfl rfl
  | tearDown out id cause hs =>
    by_cases listed : id ∈ x.table
    · exact .tearsDown listed (if_pos listed) rfl
    · have same : ((tearDown out id cause hs).step x).2 = x := by
        simp [step, ModuleContext.handleClosed_of_not_mem listed]
      rw [same]
      exact rests _ (if_neg listed) rfl
  | done r => exact rests _ rfl rfl

/-- Every step brings a thread nearer to its end. -/
theorem stepsLeft_step {p : SendPhase} {x : ModuleContext} {n : Nat}
    (few : ∀ q m, p = prepare q → x.message? q.message = some m → m.handlers.length ≤ n) :
    (p.step x).1.stepsLeft n ≤ p.stepsLeft n - 1 := by
  cases p with
  | prepare q =>
    rw [step_prepare]
    rcases hp : (ModuleContext.prepareMessage q).run x with ⟨e | out, y⟩
    · exact Nat.zero_le _
    · have fits := few q out.message rfl (ModuleContext.prepareMessage_ok hp).2
      dsimp only
      split
      · simp only [stepsLeft, List.length_reverse]
        omega
      · simp only [stepsLeft]
        omega
  | route out =>
    rw [step_route]
    rcases (ModuleContext.sendOn out.router _).run x with ⟨_ | _, _⟩ <;> exact Nat.zero_le _
  | visit out hs =>
    cases hs with
    | nil => exact Nat.zero_le _
    | cons h hs =>
      simp only [step]
      cases x.liveConnection h <;> simp only [stepsLeft, List.length_cons] <;> omega
  | write out id intent hs =>
    rw [step_write]
    rcases (ModuleContext.sendOn id _).run x with ⟨_ | _, _⟩
    · dsimp only
      split <;> simp only [stepsLeft] <;> omega
    · simp only [stepsLeft]
      omega
  | tearDown out id cause hs =>
    simp only [step]
    split <;> simp only [stepsLeft] <;> omega
  | done r => exact Nat.zero_le _

end SendPhase

def Handler.Apart (h h' : Handler) : Prop := ∀ id, h.connection = some id → h'.connection ≠ some id

theorem Handler.Apart.symm {h h' : Handler} (apart : h.Apart h') : h'.Apart h :=
  fun id hc hc' => apart id hc' hc

theorem Handler.Apart.detach {h h' : Handler} (apart : h.Apart h') (id : ConnectionId) :
    (h.detach id).Apart (h'.detach id) :=
  fun i hc hc' => apart i (connection_detach.mp hc).1 (connection_detach.mp hc').1

namespace Message

theorem pairwise_detachAll {m : Message} (id : ConnectionId)
    (apart : m.handlers.Pairwise Handler.Apart) :
    (m.detachAll id).handlers.Pairwise Handler.Apart := by
  unfold detachAll
  split
  · dsimp only
    split
    · exact .nil
    · exact apart.map _ fun _ _ apart => apart.detach id
  · exact apart

theorem length_detachAll_le (m : Message) (id : ConnectionId) :
    (m.detachAll id).handlers.length ≤ m.handlers.length := by
  unfold detachAll
  split
  · dsimp only
    split
    · exact Nat.zero_le _
    · exact Nat.le_of_eq (List.length_map _)
  · exact Nat.le_refl _

/-- What is left of a message when only connections whose other end is gone are torn down. -/
structure Keeps (message : Message) (gone : ConnectionId → Bool) (m : Message) : Prop where
  direct : m.direct = true
  messageClass : m.messageClass = message.messageClass
  messageFormat : m.messageFormat = message.messageFormat
  spared : ∀ h ∈ message.handlers, ∀ id, h.connection = some id → gone id = false → h ∈ m.handlers
  named : ∀ h ∈ m.handlers, ∀ id, h.connection = some id → h ∈ message.handlers
  apart : m.handlers.Pairwise Handler.Apart
  fewer : m.handlers.length ≤ message.handlers.length

theorem Keeps.detachAll {message m : Message} {gone : ConnectionId → Bool} {id : ConnectionId}
    (h : message.Keeps gone m) (hid : gone id = true) : message.Keeps gone (m.detachAll id) := by
  have same : m.detachAll id = { m with handlers := (m.detachAll id).handlers } := by
    unfold Message.detachAll
    split <;> rfl
  refine ⟨by rw [same, h.direct], by rw [same, h.messageClass], by rw [same, h.messageFormat],
    fun handler hh i hc alive => ?_, fun handler hh i hc => ?_, pairwise_detachAll id h.apart,
    Nat.le_trans (m.length_detachAll_le id) h.fewer⟩
  · refine (mem_detachAll_iff hc).mpr ⟨h.spared handler hh i hc alive, ?_⟩
    rintro rfl
    cases hid.symm.trans alive
  · exact h.named handler ((mem_detachAll_iff hc).mp hh).1 i hc

end Message

/-- Whether a draft can be built does not depend on its message reference. -/
theorem Draft.build_relabelled {d : Draft} {m : Envelope} (h : d.build = .ok m) (r : Int32) :
    ∃ n, { d with messageRef := r }.build = .ok n := by
  obtain ⟨classData, hc, h⟩ := ok_of_bind h
  obtain ⟨payload, hp, -⟩ := ok_of_bind h
  simp only [Draft.build]
  rw [hc, hp]
  exact ⟨_, rfl⟩

namespace ModuleContext

theorem message?_handleClosed (x : ModuleContext) {id : ConnectionId} (h : id ∈ x.table)
    (name : String) :
    (x.handleClosed id).2.message? name =
      if x.router = some id then x.message? name else (x.message? name).map (·.detachAll id) := by
  have kept : ∀ m : Message, (m.detachAll id).name = m.name := by
    intro m
    unfold Message.detachAll
    split <;> rfl
  simp only [message?, MessageRegistry.find?, messages_handleClosed x id h]
  split
  · rfl
  · rw [List.find?_map]
    simp only [Function.comp_def, kept]

/-- The envelope that a request goes out as under a message reference, before it has an intent. -/
def EncodesAs (x : ModuleContext) (message : Message) (q : SendRequest) (messageRef : Int32)
    (m : Envelope) : Prop :=
  ∃ dispatch, x.dispatchRef q = .ok dispatch ∧ (x.draft message q dispatch messageRef).build = .ok m

section Encoding

variable {x y : ModuleContext} {message : Message} {q : SendRequest} {r : Int32} {m : Envelope}

theorem EncodesAs.sized (h : x.EncodesAs message q r m) : m.Sized := by
  obtain ⟨dispatch, -, built⟩ := h
  exact (Envelope.Sound.of_build built).toSized

theorem EncodesAs.relabelled (h : x.EncodesAs message q r m) (r' : Int32) :
    ∃ n, x.EncodesAs message q r' n := by
  obtain ⟨dispatch, referred, built⟩ := h
  obtain ⟨n, built'⟩ := Draft.build_relabelled built r'
  exact ⟨n, dispatch, referred, built'⟩

theorem prepareMessage_of_unrouted (q : SendRequest) (hr : x.router = none) :
    (prepareMessage q).run x = (.error .notConnected, x) := by
  rw [prepareMessage_eq, run_bind, run_requireRouter, hr]

end Encoding

/-- Later the module still knows the message, and only connections whose other end is gone were
closed. -/
structure Retains (x₀ : ModuleContext) (message : Message) (gone : ConnectionId → Bool)
    (x : ModuleContext) : Prop where
  parentRef : x.parentRef = x₀.parentRef
  references : x.references = x₀.references
  classFormat : x.classFormat = x₀.classFormat
  kept : ∃ m, x.message? message.name = some m ∧ message.Keeps gone m
  dead : ∀ h ∈ message.handlers, ∀ id, h.connection = some id → gone id = true →
    ∃ c, x.connection? id = some c ∧ c.outgoing.gone = true ∧ (c.isOpen = true ↔ id ∈ x.table)
  alive : ∀ h ∈ message.handlers, ∀ id, h.connection = some id → gone id = false →
    ∃ c, x.connection? id = some c ∧ c.isOpen = true ∧ c.outgoing.Willing

section Retaining

variable {x₀ x y : ModuleContext} {message : Message} {gone : ConnectionId → Bool}
variable {q : SendRequest} {r : Int32} {m : Envelope} {p : SendPhase}

/-- A request of the message is prepared while there is a router. -/
theorem Retains.prepares (h : x₀.Retains message gone x) {router : ConnectionId}
    (hr : x.router = some router) (hq : q.message = message.name)
    (encodes : x₀.EncodesAs message q r m) :
    ∃ left n, (prepareMessage q).run x =
        (.ok ⟨router, left, (x.takeRef q).1, n⟩, (x.takeRef q).2) ∧
      message.Keeps gone left ∧ x₀.EncodesAs message q (x.takeRef q).1 n := by
  obtain ⟨left, found, keeps⟩ := h.kept
  obtain ⟨n, dispatch, referred, built⟩ := encodes.relabelled (x.takeRef q).1
  have referred' : x.dispatchRef q = .ok dispatch := by
    rw [← referred, dispatchRef, dispatchRef, h.references]
  have built' : (x.draft left q dispatch (x.takeRef q).1).build = .ok n := by
    rw [← built, draft, draft, h.parentRef, h.classFormat, keeps.messageClass, keeps.messageFormat]
  exact ⟨left, n, prepareMessage_of_build hr (hq ▸ found) referred' built', keeps, dispatch, referred,
    built⟩

theorem Retains.acts (h : x₀.Retains message gone x) (acts : p.Acts x y)
    (only : ∀ id, p.tears x = some id → gone id = true) : x₀.Retains message gone y := by
  cases acts with
  | notes => exact ⟨h.parentRef, h.references, h.classFormat, h.kept, h.dead, h.alive⟩
  | @sends id c m hc =>
    refine ⟨h.parentRef, h.references, h.classFormat, h.kept, fun handler hh i hi dead => ?_,
      fun handler hh i hi alive => ?_⟩
    · obtain ⟨d, hd, gone, opened⟩ := h.dead handler hh i hi dead
      rw [connection?_setConnection]
      by_cases same : i = id
      · subst same
        obtain rfl := Option.some.inj (hc.symm.trans hd)
        refine ⟨_, by rw [if_pos rfl, hc]; rfl, (c.gone_send m).trans gone, ?_⟩
        rw [c.send_eq m]
        exact opened
      · exact ⟨d, by rw [if_neg same, hd], gone, opened⟩
    · obtain ⟨d, hd, opened, willing⟩ := h.alive handler hh i hi alive
      rw [connection?_setConnection]
      by_cases same : i = id
      · subst same
        obtain rfl := Option.some.inj (hc.symm.trans hd)
        refine ⟨_, by rw [if_pos rfl, hc]; rfl, ?_, (Connection.send_of_willing willing m).1⟩
        rw [c.send_eq m]
        exact opened
      · exact ⟨d, by rw [if_neg same, hd], opened, willing⟩
  | @tearsDown id listed tears =>
    have dies : gone id = true := only id tears
    have others : ∀ i, gone i = false → i ≠ id := by
      rintro i alive rfl
      cases dies.symm.trans alive
    refine ⟨?_, ?_, ?_, ?_, fun handler hh i hi dead => ?_, fun handler hh i hi alive => ?_⟩
    · rw [handleClosed_eq]
      exact h.parentRef
    · rw [handleClosed_eq]
      exact h.references
    · rw [handleClosed_eq]
      exact h.classFormat
    · obtain ⟨left, found, keeps⟩ := h.kept
      rw [message?_handleClosed x listed, found]
      split
      · exact ⟨left, rfl, keeps⟩
      · exact ⟨left.detachAll id, rfl, keeps.detachAll dies⟩
    · obtain ⟨d, hd, gone, opened⟩ := h.dead handler hh i hi dead
      rw [connection?_handleClosed x id listed, mem_table_handleClosed]
      by_cases same : i = id
      · subst same
        exact ⟨d.invalidate.2, by rw [if_pos rfl, hd]; rfl, gone, nofun, fun both => absurd rfl both.2⟩
      · refine ⟨d, by rw [if_neg same, hd], gone, opened.trans ?_⟩
        exact (and_iff_left same).symm
    · obtain ⟨d, hd, opened, willing⟩ := h.alive handler hh i hi alive
      rw [connection?_handleClosed x id listed, if_neg (others i alive)]
      exact ⟨d, hd, opened, willing⟩

theorem isOpen_of_acts (acts : p.Acts x y) (i : ConnectionId) :
    y.isOpen i = (decide (p.tears x ≠ some i) && x.isOpen i) := by
  cases acts with
  | notes tears =>
    rw [tears]
    rfl
  | sends hc tears =>
    rw [isOpen_setConnection_send hc, tears]
    rfl
  | tearsDown listed tears =>
    rw [isOpen_handleClosed x _ listed, tears]
    simp [eq_comm]

theorem mem_table_of_acts (acts : p.Acts x y) (i : ConnectionId) :
    i ∈ y.table ↔ i ∈ x.table ∧ p.tears x ≠ some i := by
  cases acts with
  | notes tears => simp [tears]
  | sends hc tears => simp [tears, setConnection]
  | tearsDown listed tears =>
    rw [mem_table_handleClosed, tears]
    simp [eq_comm]

/-- What a step puts on a willing connection is the envelopes that it writes whole. -/
theorem written_of_acts (acts : p.Acts x y) {id : ConnectionId} {c : Connection}
    (hc : x.connection? id = some c) (willing : c.outgoing.Willing) :
    ∃ d, y.connection? id = some d ∧ d.outgoing.written = c.outgoing.written ++
      ((p.writes x).filter (·.1 = id)).flatMap fun w => w.2.wire := by
  cases acts with
  | notes _ writes =>
    rw [writes]
    exact ⟨c, hc, (List.append_nil _).symm⟩
  | @sends other d m hd _ writes =>
    rw [connection?_setConnection, writes]
    by_cases same : id = other
    · subst same
      obtain rfl := Option.some.inj (hc.symm.trans hd)
      refine ⟨_, by rw [if_pos rfl, hc]; rfl, ?_⟩
      rw [(Connection.send_of_willing willing m).2]
      cases (c.send m).1.isOk <;> simp
    · refine ⟨c, by rw [if_neg same, hc], ?_⟩
      cases (d.send m).1.isOk <;> simp [Ne.symm same]
  | @tearsDown other listed _ writes =>
    rw [connection?_handleClosed x other listed, writes]
    by_cases same : id = other
    · subst same
      exact ⟨c.invalidate.2, by rw [if_pos rfl, hc]; rfl, (List.append_nil _).symm⟩
    · exact ⟨c, by rw [if_neg same, hc], (List.append_nil _).symm⟩

end Retaining

end ModuleContext

end ModuleLink
