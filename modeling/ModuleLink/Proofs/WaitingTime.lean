import ModuleLink.TimedWaiters
import ModuleLink.Proofs.LateReads

/-! # How long a thread waits for its reply

A thread that waits for a reply gives up when it looks at the clock behind its deadline, or when a read
of the router connection is late. So it keeps to its time as its reads do, whatever else happens
meanwhile. -/
namespace ModuleLink

variable {deadline timeout : Option Span} {now began : Span} {w : Waiter} {x : ModuleContext}
  {t : TimedWaiter}

/-- What a thread has come to is not late before its deadline. -/
def WaitPhase.InTime (deadline : Option Span) (now : Span) : WaitPhase → Prop
  | letGo _ r | settle _ r => r.isLate = true → Span.Passed deadline now
  | done result => ∀ limit, result = .error (.timeout limit) → Span.Passed deadline now
  | _ => True

theorem WaitPhase.InTime.mono {phase : WaitPhase} {later : Span} (h : phase.InTime deadline now)
    (le : now.nanos ≤ later.nanos) : phase.InTime deadline later := by
  cases phase with
  | letGo | settle => exact fun late => (h late).mono le
  | done => exact fun limit ended => (h limit ended).mono le
  | _ => trivial

theorem Span.passed_of_until (h : Span.until deadline now = some .zero) :
    Span.Passed deadline now := by
  obtain ⟨d, hd, left⟩ := Option.map_eq_some_iff.mp h
  exact ⟨d, hd, Nat.sub_eq_zero_iff_le.mp (congrArg Span.nanos left)⟩

namespace Waiter

/-- A step that reads nothing is late only if the thread sees that its time is over. -/
theorem step_inTime (inTime : w.phase.InTime deadline now) (left : w.left = Span.until deadline now)
    (still : ∀ router, w.phase = .receive router → x.connection? router = none) :
    (w.step x).1.phase.InTime deadline now := by
  cases hp : w.phase with
  | look =>
    simp only [step, hp]
    rcases x.takePending w.messageRef with ⟨_ | m, y⟩
    · trivial
    · exact fun limit ended => absurd ended (ModuleContext.finishReply_ne_timeout m limit)
  | reach =>
    simp only [step, hp]
    split
    · by_cases gone : w.left = some .zero
      · rw [if_pos gone]
        exact fun _ _ => Span.passed_of_until (left.symm.trans gone)
      · rw [if_neg gone]
        split
        · exact fun _ ended => nomatch ended
        · trivial
        · trivial
    · exact fun _ ended => nomatch ended
  | lookAgain router =>
    simp only [step, hp]
    rcases x.takePending w.messageRef with ⟨_ | m, y⟩
    · trivial
    · exact fun limit ended => absurd ended (ModuleContext.finishReply_ne_timeout m limit)
  | receive router =>
    simp only [step, hp, still router hp]
    exact fun _ ended => nomatch ended
  | letGo router r =>
    rw [hp] at inTime
    simp only [step, hp]
    exact inTime
  | settle router r =>
    rw [hp] at inTime
    simp only [step, hp]
    cases result : r.result with
    | ok m =>
      dsimp only
      split
      · exact fun limit ended => absurd ended (ModuleContext.finishReply_ne_timeout m limit)
      · trivial
    | error e =>
      dsimp only
      intro limit ended
      rw [ModuleContext.failReception_eq] at ended
      obtain ⟨cause, rfl, late⟩ := ModuleContext.transport_of_failure (Except.error.inj ended)
      refine inTime ?_
      simp only [Reception.isLate, result]
      exact late
  | done result =>
    rw [hp] at inTime
    simp only [step, hp]
    exact inTime

end Waiter

namespace TimedWaiter

structure InTime (timeout : Option Span) (began : Span) (t : TimedWaiter) : Prop where
  deadline : t.deadline = Span.fromNow timeout began
  clock : began.nanos ≤ t.now.nanos
  phase : t.waiter.phase.InTime t.deadline t.now

theorem overAt_succ {script : List (Turn × Span)} {k : Nat} {ending : Span}
    (h : overAt now script (k + 1) = some ending) : ∃ turn, script[k]? = some (turn, ending) := by
  obtain ⟨⟨turn, ending'⟩, entry, rfl⟩ := Option.map_eq_some_iff.mp h
  exact ⟨turn, entry⟩

/-- A thread that receives makes some reads of its script, and stands where the last of them is over. It
is late only if that one was. -/
theorem step_receive {router : ConnectionId} {c : Connection} {script : List (Turn × Span)}
    {reads : List Moment} (receives : t.waiter.phase = .receive router)
    (hc : t.context.connection? router = some c) (hs : readScript t.deadline t.now reads = script) :
    t.step reads = t ∨ ∃ (r : Reception) (n : Nat) (ending : Span),
      overAt t.now script n = some ending ∧
      (r.isLate = true → (c.incoming.scripted (script.map Prod.fst)).LateAt n) ∧
      (t.step reads).waiter.phase = .letGo router r ∧ (t.step reads).now = ending ∧
      (t.step reads).deadline = t.deadline := by
  generalize hi : c.incoming.scripted (script.map Prod.fst) = incoming
  have same : incoming.calls = c.incoming.calls := hi ▸ rfl
  have ended : incoming.exhaustion = .ended := hi ▸ rfl
  have found := ModuleContext.connection?_setConnection_self hc { c with incoming }
  rcases hr : Connection.receiveReply { c with incoming } t.context.settings.limits t.waiter.buffer
    with ⟨r, buffer, d⟩
  obtain ⟨n, advances, late⟩ := Source.receiveReply_reads hr
  have stepped : t.looking.step (t.context.setConnection router { c with incoming }) =
      ({ t.looking with buffer, phase := .letGo router r },
        (t.context.setConnection router { c with incoming }).setConnection router d) := by
    have phase : t.looking.phase = .receive router := receives
    have settings : (t.context.setConnection router { c with incoming }).settings =
      t.context.settings := rfl
    have kept : t.looking.buffer = t.waiter.buffer := rfl
    simp only [Waiter.step, phase, found, settings, kept, hr]
  have made : d.incoming.calls.length - c.incoming.calls.length = n := by
    rw [advances.calls, same]
    exact Nat.add_sub_cancel_left ..
  have left := ModuleContext.connection?_setConnection_self found d
  simp only [step, receives, hc, hs, hi, stepped, left, Option.elim_some, made]
  cases hover : overAt t.now script n with
  | none => exact .inl rfl
  | some ending => exact .inr ⟨r, n, ending, hover, fun isLate => late isLate ended, rfl, rfl, rfl⟩

/-- Any other step takes no time, and the thread knows how much is left. -/
theorem step_of_still (reads : List Moment)
    (still : ∀ router, t.waiter.phase = .receive router → t.context.connection? router = none) :
    t.step reads = { t with
      waiter := (t.looking.step t.context).1
      context := (t.looking.step t.context).2 } := by
  simp only [step]
  cases hp : t.waiter.phase with
  | receive router => simp only [still router hp]
  | _ => rfl

theorem InTime.step (h : t.InTime timeout began) (askable : ∀ d ∈ timeout, d.Askable)
    {reads : List Moment} (sincere : ∀ m ∈ reads, m.Sincere) : (t.step reads).InTime timeout began := by
  by_cases receiving : ∃ router c, t.waiter.phase = .receive router ∧
      t.context.connection? router = some c
  · obtain ⟨router, c, receives, hc⟩ := receiving
    obtain still | ⟨r, n, ending, made, late, phase, now, deadline⟩ := step_receive receives hc rfl
    · rw [still]
      exact h
    · have left : ∀ left ∈ Span.until t.deadline t.now, left.Askable := by
        rw [h.deadline]
        exact Span.askable_later (Span.askable_until_fromNow askable began) h.clock
      have clock : t.now.nanos ≤ ending.nanos := by
        cases n with
        | zero => exact Nat.le_of_eq (congrArg Span.nanos (Option.some.inj made))
        | succ k =>
          obtain ⟨turn, entry⟩ := overAt_succ made
          exact le_readScript entry
      refine ⟨deadline.trans h.deadline, ?_, ?_⟩
      · rw [now]
        exact Nat.le_trans h.clock clock
      · rw [phase, now, deadline]
        intro isLate
        obtain ⟨k, cause, rfl, failed, isLate⟩ := late isLate
        obtain ⟨turn, entry⟩ := overAt_succ made
        have turns : ((readScript t.deadline t.now reads).map Prod.fst)[k]? = some (.fail cause) :=
          failed
        rw [List.getElem?_map, entry] at turns
        obtain rfl : turn = .fail cause := Option.some.inj turns
        exact passed_of_readScript sincere left entry isLate
  · have still : ∀ router, t.waiter.phase = .receive router → t.context.connection? router = none :=
      fun router receives => Option.eq_none_iff_forall_ne_some.mpr fun c hc =>
        receiving ⟨router, c, receives, hc⟩
    rw [step_of_still reads still]
    exact ⟨h.deadline, h.clock, t.looking.step_inTime h.phase rfl still⟩

/-- Each event leaves a thread in time, if its whole time can be asked for at once. -/
theorem InTime.happen (h : t.InTime timeout began) (askable : ∀ d ∈ timeout, d.Askable)
    {event : ClockEvent} (sincere : ∀ reads, event = .steps reads → ∀ m ∈ reads, m.Sincere) :
    (t.happen event).InTime timeout began := by
  cases event with
  | passes time =>
    have later : t.now.nanos ≤ t.now.nanos + time.nanos := Nat.le_add_right ..
    exact ⟨h.deadline, Nat.le_trans h.clock later, h.phase.mono later⟩
  | others act => exact ⟨h.deadline, h.clock, h.phase⟩
  | steps reads => exact h.step askable (sincere reads rfl)

theorem InTime.live (h : t.InTime timeout began) (askable : ∀ d ∈ timeout, d.Askable)
    {events : List ClockEvent}
    (sincere : ∀ reads, .steps reads ∈ events → ∀ m ∈ reads, m.Sincere) :
    (t.live events).InTime timeout began := by
  induction events generalizing t with
  | nil => exact h
  | cons event events ih =>
    refine ih (h.happen askable fun reads steps => ?_) fun reads later => ?_
    · exact sincere reads (steps ▸ List.mem_cons_self ..)
    · exact sincere reads (List.mem_cons_of_mem _ later)

end TimedWaiter

end ModuleLink
