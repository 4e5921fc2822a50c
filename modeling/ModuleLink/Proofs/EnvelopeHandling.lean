import ModuleLink.Proofs.ExactReception
import ModuleLink.Proofs.MissedReplies

/-! # What one step of a waiting thread does with an envelope

A thread takes an envelope off the connection, or finds one among the pending replies. What it has
taken it returns, keeps for another thread, or files for later. An envelope that is refused for its
alignment is taken too, and dropped. -/
namespace ModuleLink

def Envelope.front (bytes : Bytes) : Envelope :=
  let header := Header.decode bytes
  let body := bytes.drop Header.size
  ⟨header, body.take header.classTotal.toNat,
    (body.drop header.classTotal.toNat).take header.messageTotal.toNat⟩

theorem Envelope.Sized.front_wire {m : Envelope} (h : m.Sized) (rest : Bytes) :
    Envelope.front (m.wire ++ rest) = m := by
  have body : (m.header.encode ++ (m.classData ++ (m.payload ++ rest))).drop Header.size =
      m.classData ++ (m.payload ++ rest) := by
    rw [← Header.length_encode m.header, List.drop_left]
  simp only [Envelope.front, Envelope.wire_eq, List.append_assoc, Header.decode_encode, body,
    h.classTotal, h.messageTotal, List.take_left, List.drop_left]

inductive Handling
  | nothing
  | takes (m : Envelope)
  | refuses (m : Envelope)
  | finds (place : Nat)
  | returns
  | keeps
  | files

def Handling.read : Handling → List Envelope
  | takes m | refuses m => [m]
  | _ => []

def isAnswer : Except PeerError Envelope → Bool
  | .ok _ | .error .nullReply => true
  | .error _ => false

def WaitPhase.answer? : WaitPhase → Option (Except PeerError Envelope)
  | done r => if isAnswer r then some r else none
  | _ => none

theorem isAnswer_finishReply (m : Envelope) : isAnswer (finishReply m) := by
  simp only [finishReply]
  split <;> rfl

@[simp] theorem WaitPhase.answer?_finishReply (m : Envelope) :
    (WaitPhase.done (finishReply m)).answer? = some (finishReply m) :=
  if_pos (isAnswer_finishReply m)

theorem isAnswer_failure (timeout : Option Span) (e : FrameError) :
    isAnswer (.error (ModuleContext.failure timeout e)) = false := by
  simp only [ModuleContext.failure]
  split <;> rfl

namespace ModuleContext

structure SameStream (x y : ModuleContext) (router : ConnectionId) : Prop where
  settings : y.settings = x.settings
  incoming : ∀ c, x.connection? router = some c →
    ∃ d, y.connection? router = some d ∧ d.incoming = c.incoming

variable {x : ModuleContext}

theorem SameStream.refl (router : ConnectionId) : x.SameStream x router :=
  ⟨rfl, fun c hc => ⟨c, hc, rfl⟩⟩

theorem SameStream.trans {y z : ModuleContext} {router : ConnectionId}
    (h : x.SameStream y router) (h' : y.SameStream z router) : x.SameStream z router := by
  refine ⟨h'.settings.trans h.settings, fun c hc => ?_⟩
  obtain ⟨d, hd, same⟩ := h.incoming c hc
  obtain ⟨e, he, same'⟩ := h'.incoming d hd
  exact ⟨e, he, same'.trans same⟩

theorem sameStream_handleClosed (x : ModuleContext) (id router : ConnectionId) :
    x.SameStream (x.handleClosed id).2 router :=
  ⟨settings_handleClosed x id, fun _ hc => incoming_handleClosed x id hc⟩

theorem sameStream_setConnection {id : ConnectionId} {c d : Connection}
    (hc : x.connection? id = some c) (hd : d.incoming = c.incoming) (router : ConnectionId) :
    x.SameStream (x.setConnection id d) router := by
  refine ⟨rfl, fun c' hc' => ?_⟩
  by_cases same : router = id
  · subst same
    obtain rfl := Option.some.inj (hc.symm.trans hc')
    exact ⟨d, connection?_setConnection_self hc d, hd⟩
  · exact ⟨c', by rw [connection?_setConnection, if_neg same, hc'], rfl⟩

theorem sameStream_takePending (x : ModuleContext) (messageRef : Int32) (router : ConnectionId) :
    x.SameStream (x.takePending messageRef).2 router := by
  simp only [takePending]
  split <;> exact ⟨rfl, fun c hc => ⟨c, hc, rfl⟩⟩

theorem sameStream_setAside (x : ModuleContext) (id : ConnectionId) (m : Envelope)
    (router : ConnectionId) : x.SameStream (x.setAside id m) router := by
  simp only [setAside]
  split <;> exact ⟨rfl, fun c hc => ⟨c, hc, rfl⟩⟩

theorem sameStream_failReception (x : ModuleContext) (id : ConnectionId) (timeout : Option Span)
    (e : FrameError) (consumed : Nat) (router : ConnectionId) :
    x.SameStream (x.failReception id timeout e consumed).2 router := by
  rw [failReception_eq]
  dsimp only
  split
  · exact sameStream_handleClosed x id router
  · exact .refl router

end ModuleContext

theorem Connection.receiveReply_eq (c : Connection) (limits : Limits) (b : Option ReplyBuffer) :
    (c.receiveReply limits b).1.result = (ModuleLink.receive c.incoming limits).1 ∧
      (c.receiveReply limits b).2.2.incoming = (ModuleLink.receive c.incoming limits).2 := by
  cases b with
  | none => exact ⟨rfl, rfl⟩
  | some b => exact receiveWithReply_eq c.incoming limits b

namespace Waiter

/-- What the next step of a thread does with an envelope. -/
def handling (w : Waiter) (x : ModuleContext) : Handling :=
  match w.phase with
  | .look | .lookAgain _ =>
    match x.pendingReplies.findIdx? (·.messageRef = w.messageRef) with
    | some place => .finds place
    | none => .nothing
  | .receive router =>
    match x.connection? router with
    | some c =>
      match (c.receiveReply x.settings.limits w.buffer).1.result with
      | .ok m => .takes m
      | .error (.unsupportedAlignment _) => .refuses (.front c.incoming.unread)
      | .error _ => .nothing
    | none => .nothing
  | .settle _ r =>
    match r.result with
    | .ok m =>
      if isReplyTo w.messageRef m then .returns
      else if m.intent = queryReplyIntent then .keeps
      else .files
    | .error _ => .nothing
  | _ => .nothing

/-- A thread and the two queues, before and after a step that does this with an envelope. -/
inductive Carries (w : Waiter) (x : ModuleContext) (w' : Waiter) (x' : ModuleContext) :
    Handling → Prop
  | nothing (hand : w'.phase.inHand = w.phase.inHand)
      (answer : w'.phase.answer? = w.phase.answer?)
      (pending : x'.pendingReplies = x.pendingReplies) (inbound : x'.inbound = x.inbound) :
      Carries w x w' x' .nothing
  | takes {m : Envelope} (hand : w.phase.inHand = none) (answer : w.phase.answer? = none)
      (hand' : w'.phase.inHand = some m) (answer' : w'.phase.answer? = none)
      (pending : x'.pendingReplies = x.pendingReplies) (inbound : x'.inbound = x.inbound) :
      Carries w x w' x' (.takes m)
  | refuses {m : Envelope} (padded : m.classifier.alignment ≠ .packed)
      (hand : w'.phase.inHand = w.phase.inHand) (answer : w'.phase.answer? = w.phase.answer?)
      (pending : x'.pendingReplies = x.pendingReplies) (inbound : x'.inbound = x.inbound) :
      Carries w x w' x' (.refuses m)
  | finds {place : Nat} {m : Envelope} (hand : w.phase.inHand = none)
      (answer : w.phase.answer? = none) (found : x.pendingReplies[place]? = some m)
      (reference : m.messageRef = w.messageRef) (done : w'.phase = .done (finishReply m))
      (pending : x'.pendingReplies = x.pendingReplies.eraseIdx place)
      (inbound : x'.inbound = x.inbound) : Carries w x w' x' (.finds place)
  | returns {m : Envelope} (hand : w.phase.inHand = some m) (answer : w.phase.answer? = none)
      (reply : isReplyTo w.messageRef m) (done : w'.phase = .done (finishReply m))
      (pending : x'.pendingReplies = x.pendingReplies) (inbound : x'.inbound = x.inbound) :
      Carries w x w' x' .returns
  | keeps {m : Envelope} (hand : w.phase.inHand = some m) (answer : w.phase.answer? = none)
      (reply : m.intent = queryReplyIntent) (hand' : w'.phase.inHand = none)
      (answer' : w'.phase.answer? = none)
      (pending : x'.pendingReplies = x.pendingReplies ++ [m]) (inbound : x'.inbound = x.inbound) :
      Carries w x w' x' .keeps
  | files {id : ConnectionId} {m : Envelope} (hand : w.phase.inHand = some m)
      (answer : w.phase.answer? = none) (other : m.intent ≠ queryReplyIntent)
      (hand' : w'.phase.inHand = none) (answer' : w'.phase.answer? = none)
      (pending : x'.pendingReplies = x.pendingReplies)
      (inbound : x'.inbound = x.inbound ++ [(id, m)]) : Carries w x w' x' .files

@[simp] theorem inbound_holdReader (x : ModuleContext) (id : ConnectionId) (held : Bool) :
    (holdReader x id held).inbound = x.inbound := by
  simp only [holdReader]
  split <;> rfl

theorem sameStream_holdReader (x : ModuleContext) (id : ConnectionId) (held : Bool)
    (router : ConnectionId) : x.SameStream (holdReader x id held) router := by
  simp only [holdReader]
  cases hc : x.connection? id with
  | none => exact .refl router
  | some c =>
    exact ModuleContext.sameStream_setConnection (d := { c with readHeld := held }) hc rfl router

section Carries

variable {w : Waiter} {x : ModuleContext}

/-- What a look among the pending replies finds, and where. -/
private theorem takePending_at (x : ModuleContext) (messageRef : Int32) :
    (∃ place m, x.pendingReplies.findIdx? (·.messageRef = messageRef) = some place ∧
      x.pendingReplies[place]? = some m ∧ m.messageRef = messageRef ∧
      x.takePending messageRef =
        (some m, { x with pendingReplies := x.pendingReplies.eraseIdx place })) ∨
    x.pendingReplies.findIdx? (·.messageRef = messageRef) = none ∧
      x.takePending messageRef = (none, x) := by
  simp only [ModuleContext.takePending]
  cases hi : x.pendingReplies.findIdx? (·.messageRef = messageRef) with
  | none => exact .inr ⟨rfl, rfl⟩
  | some place =>
    obtain ⟨hlt, hm, -⟩ := List.findIdx?_eq_some_iff_getElem.mp hi
    refine .inl ⟨place, x.pendingReplies[place], rfl, List.getElem?_eq_getElem hlt,
      by simpa using hm, ?_⟩
    dsimp only
    rw [List.getElem?_eq_getElem hlt]

private theorem look_carries (hp : w.phase = .look ∨ ∃ id, w.phase = .lookAgain id) :
    w.Carries x (w.step x).1 (w.step x).2 (w.handling x) := by
  have hand : w.phase.inHand = none := by rcases hp with hp | ⟨id, hp⟩ <;> rw [hp] <;> rfl
  have answer : w.phase.answer? = none := by rcases hp with hp | ⟨id, hp⟩ <;> rw [hp] <;> rfl
  unfold step handling
  obtain ⟨place, m, hi, hm, reference, ht⟩ | ⟨hi, ht⟩ := takePending_at x w.messageRef
  · rcases hp with hp | ⟨id, hp⟩
    · simp only [hp, hi, ht]
      exact .finds hand answer hm reference rfl rfl rfl
    · simp only [hp, hi, ht]
      exact .finds hand answer hm reference rfl (pendingReplies_holdReader ..)
        (inbound_holdReader ..)
  · rcases hp with hp | ⟨id, hp⟩
    · simp only [hp, hi, ht]
      exact .nothing hand.symm answer.symm rfl rfl
    · simp only [hp, hi, ht]
      exact .nothing hand.symm answer.symm rfl rfl

private theorem reach_carries (hp : w.phase = .reach) :
    w.Carries x (w.step x).1 (w.step x).2 (w.handling x) := by
  have hand : w.phase.inHand = none := by rw [hp]; rfl
  have answer : w.phase.answer? = none := by rw [hp]; rfl
  unfold step handling
  simp only [hp]
  split
  · split
    · exact .nothing hand.symm answer.symm rfl rfl
    · split
      · exact .nothing hand.symm answer.symm rfl rfl
      · exact .nothing hand.symm answer.symm rfl rfl
      · exact .nothing hand.symm answer.symm (pendingReplies_holdReader ..)
          (inbound_holdReader ..)
  · exact .nothing hand.symm answer.symm rfl rfl

/-- An attempt that is refused for its alignment has taken a whole envelope. -/
private theorem front_of_refused {c : Connection} {limits : Limits} {b : Option ReplyBuffer}
    {code : UInt8} (h : (c.receiveReply limits b).1.result = .error (.unsupportedAlignment code)) :
    (Envelope.front c.incoming.unread).classifier.alignment ≠ .packed := by
  rcases hr : c.receiveReply limits b with ⟨r, b', d⟩
  obtain ⟨taken, hy, ha, -, -⟩ := Connection.receiveReply_attempt hr
  rw [hr] at h
  rw [h] at ha
  cases ha with
  | unpacked sized _ padded => rwa [hy.unread, sized.front_wire]

private theorem receive_carries {id : ConnectionId} (hp : w.phase = .receive id) :
    w.Carries x (w.step x).1 (w.step x).2 (w.handling x) := by
  have hand : w.phase.inHand = none := by rw [hp]; rfl
  have answer : w.phase.answer? = none := by rw [hp]; rfl
  unfold step handling
  simp only [hp]
  cases hc : x.connection? id with
  | none => exact .nothing hand.symm answer.symm rfl rfl
  | some c =>
    dsimp only
    cases hr : (c.receiveReply x.settings.limits w.buffer).1.result with
    | ok m =>
      exact .takes hand answer (by simp [WaitPhase.inHand, hr, Except.toOption]) rfl rfl rfl
    | error e =>
      have empty : (WaitPhase.letGo id (c.receiveReply x.settings.limits w.buffer).1).inHand =
          none := by simp [WaitPhase.inHand, hr, Except.toOption]
      cases e with
      | unsupportedAlignment code =>
        exact .refuses (front_of_refused hr) (hand.symm ▸ empty) answer.symm rfl rfl
      | _ => exact .nothing (hand.symm ▸ empty) answer.symm rfl rfl

private theorem settle_carries {id : ConnectionId} {r : Reception} (hp : w.phase = .settle id r) :
    w.Carries x (w.step x).1 (w.step x).2 (w.handling x) := by
  have answer : w.phase.answer? = none := by rw [hp]; rfl
  unfold step handling
  simp only [hp]
  cases hr : r.result with
  | ok m =>
    have hand : w.phase.inHand = some m := by
      simp [hp, WaitPhase.inHand, hr, Except.toOption]
    dsimp only
    by_cases reply : isReplyTo w.messageRef m = true
    · rw [if_pos reply, if_pos reply]
      exact .returns hand answer reply rfl rfl rfl
    · rw [if_neg reply, if_neg reply]
      unfold ModuleContext.setAside
      by_cases intent : m.intent = queryReplyIntent
      · rw [if_pos intent, if_pos intent]
        exact .keeps hand answer intent rfl rfl rfl rfl
      · rw [if_neg intent, if_neg intent]
        exact .files hand answer intent rfl rfl rfl rfl
  | error e =>
    have hand : w.phase.inHand = none := by
      simp [hp, WaitPhase.inHand, hr, Except.toOption]
    dsimp only
    rw [ModuleContext.failReception_eq]
    dsimp only
    refine .nothing hand.symm ?_ ?_ ?_
    · rw [answer]
      exact if_neg (by simp [isAnswer_failure])
    · split
      · exact ModuleContext.pendingReplies_handleClosed ..
      · rfl
    · split
      · exact ModuleContext.inbound_handleClosed ..
      · rfl

theorem step_carries (w : Waiter) (x : ModuleContext) :
    w.Carries x (w.step x).1 (w.step x).2 (w.handling x) := by
  cases hp : w.phase with
  | look => exact look_carries (.inl hp)
  | lookAgain id => exact look_carries (.inr ⟨id, hp⟩)
  | reach => exact reach_carries hp
  | receive id => exact receive_carries hp
  | letGo id r =>
    unfold step handling
    simp only [hp]
    exact .nothing (by rw [hp]; rfl) (by rw [hp]; rfl) (pendingReplies_holdReader ..)
      (inbound_holdReader ..)
  | settle id r => exact settle_carries hp
  | done r =>
    have nothing : w.handling x = .nothing := by unfold handling; rw [hp]
    rw [nothing, step_done (by rw [hp]; rfl)]
    exact .nothing rfl rfl rfl rfl

end Carries

section Stream

variable {w : Waiter} {x : ModuleContext} {router : ConnectionId}

/-- Only a thread that receives takes bytes off a connection. -/
theorem sameStream_step (h : w.phase.receives = false) (router : ConnectionId) :
    x.SameStream (w.step x).2 router := by
  have look := ModuleContext.sameStream_takePending x w.messageRef router
  unfold step
  cases hp : w.phase with
  | look =>
    rcases ht : x.takePending w.messageRef with ⟨_ | m, y⟩
    · exact .refl router
    · rwa [ht] at look
  | lookAgain id =>
    rcases ht : x.takePending w.messageRef with ⟨_ | m, y⟩
    · exact .refl router
    · rw [ht] at look
      exact look.trans (sameStream_holdReader y id false router)
  | reach =>
    dsimp only
    split
    · split
      · exact .refl router
      · split
        · exact .refl router
        · exact .refl router
        · exact sameStream_holdReader ..
    · exact .refl router
  | receive id =>
    rw [hp] at h
    cases h
  | letGo id r => exact sameStream_holdReader ..
  | settle id r =>
    dsimp only
    split
    · split
      · exact .refl router
      · exact ModuleContext.sameStream_setAside ..
    · exact ModuleContext.sameStream_failReception ..
  | done r => exact .refl router

theorem settings_step (w : Waiter) (x : ModuleContext) : (w.step x).2.settings = x.settings := by
  by_cases h : w.phase.receives = true
  · unfold step
    cases hp : w.phase with
    | receive id =>
      dsimp only
      split <;> rfl
    | _ => simp [hp, WaitPhase.receives] at h
  · exact (sameStream_step (Bool.eq_false_iff.mpr h) 0).settings

private theorem not_whole_of_empty {limits : Limits} {taken : Bytes}
    {r : Except FrameError Envelope} (h : Attempt limits taken r) (empty : taken = []) :
    (∀ m, r ≠ .ok m) ∧ ∀ code, r ≠ .error (.unsupportedAlignment code) := by
  cases h with
  | accepted | unpacked => exact absurd empty (Envelope.wire_ne_nil _)
  | tooLarge | cutHeader | cutBody => exact ⟨nofun, nofun⟩

private theorem read_of_not_receives (h : w.phase.receives = false) :
    (w.handling x).read = [] := by
  unfold handling
  cases hp : w.phase with
  | receive id =>
    rw [hp] at h
    cases h
  | look | lookAgain id =>
    dsimp only
    split <;> rfl
  | settle id r =>
    dsimp only
    split
    · split
      · rfl
      · split <;> rfl
    · rfl
  | _ => rfl

private theorem handling_of_receive {c : Connection} (hp : w.phase = .receive router)
    (hc : x.connection? router = some c) :
    w.handling x = match (ModuleLink.receive c.incoming x.settings.limits).1 with
      | .ok m => .takes m
      | .error (.unsupportedAlignment _) => .refuses (.front c.incoming.unread)
      | .error _ => .nothing := by
  unfold handling
  simp only [hp, hc, (c.receiveReply_eq x.settings.limits w.buffer).1]

/-- While whole envelopes within the limits stand on a stream that goes on, a step takes the first
of them or none. -/
theorem step_reads {c : Connection} {standing : List Envelope}
    (known : ∀ id, w.phase.holds = some id → id = router) (hc : x.connection? router = some c)
    (hs : ∀ turn ∈ c.incoming.turns, turn.goesOn)
    (framed : ∀ m ∈ standing, m.Sized ∧ m.header.Fits x.settings.limits)
    (hu : c.incoming.unread = standing.flatMap Envelope.wire) :
    ∃ d rest, (w.step x).2.connection? router = some d ∧
      (∀ turn ∈ d.incoming.turns, turn.goesOn) ∧ standing = (w.handling x).read ++ rest ∧
      d.incoming.unread = rest.flatMap Envelope.wire := by
  cases h : w.phase.receives with
  | false =>
    obtain ⟨d, hd, same⟩ := (sameStream_step h router).incoming c hc
    rw [read_of_not_receives h]
    exact ⟨d, standing, hd, same ▸ hs, rfl, same ▸ hu⟩
  | true =>
    obtain ⟨id, hp⟩ : ∃ id, w.phase = .receive id := by
      cases hp : w.phase with
      | receive id => exact ⟨id, rfl⟩
      | _ => rw [hp] at h; cases h
    obtain rfl := known id (by rw [hp]; rfl)
    have now : (w.step x).2.connection? id =
        some (c.receiveReply x.settings.limits w.buffer).2.2 := by
      unfold step
      simp only [hp, hc]
      exact ModuleContext.connection?_setConnection_self hc _
    have incoming := (c.receiveReply_eq x.settings.limits w.buffer).2
    rw [handling_of_receive hp hc]
    cases standing with
    | nil =>
      obtain ⟨taken, hy, ha⟩ : ∃ taken,
          c.incoming.Yields taken (ModuleLink.receive c.incoming x.settings.limits).2 ∧
            Attempt x.settings.limits taken
              (ModuleLink.receive c.incoming x.settings.limits).1 := receive_attempt rfl
      obtain ⟨nothing, empty⟩ := List.append_eq_nil_iff.mp (hy.unread.symm.trans hu)
      obtain ⟨notOk, notRefused⟩ := not_whole_of_empty ha nothing
      refine ⟨_, [], now, incoming ▸ hy.goesOn hs, ?_, incoming ▸ empty⟩
      split
      · exact absurd ‹_› (notOk _)
      · exact absurd ‹_› (notRefused _)
      · rfl
    | cons m rest =>
      obtain ⟨sized, fits⟩ := framed m (List.mem_cons_self ..)
      rw [List.flatMap_cons] at hu
      obtain ⟨verdict, hy⟩ := receive_frame hs sized fits hu
      have left := List.append_cancel_left (hy.unread.symm.trans hu)
      refine ⟨_, rest, now, incoming ▸ hy.goesOn hs, ?_, incoming ▸ left⟩
      rw [verdict, Envelope.verdict, hu, sized.front_wire]
      by_cases packed : m.header.alignmentByte = 0
      · simp [packed, Handling.read]
      · simp [packed, Handling.read]

end Stream

end Waiter

end ModuleLink
