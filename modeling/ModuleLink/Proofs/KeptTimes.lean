import ModuleLink.Proofs.WaitingTime

/-! # Which times are kept

A wait, a read and a thread that waits for a reply keep to their time exactly if the system can be asked
for this time at once. If it cannot, a system that is exact ends the first wait too early. -/
namespace ModuleLink

variable {timeout : Option Span} {now : Span} {w : Waiter} {x : ModuleContext} {t : TimedWaiter}

/-- Whatever the system does, a wait for this time ends in vain only when the time has passed. -/
def WaitsInTime (timeout : Option Span) : Prop :=
  ∀ (now : Span) (polls : List Poll), (∀ poll ∈ polls, poll.Honest) →
    (waitFor timeout now polls).result = some (.ok none) →
    Span.Passed (Span.fromNow timeout now) (waitFor timeout now polls).now

/-- The system is never asked to wait for less than is left. -/
def AsksInFull (timeout : Option Span) : Prop :=
  ∀ (now : Span) (polls : List Poll) (i ms : Nat),
    (waitFor timeout now polls).asked[i]? = some (some ms) →
    let deadline := Span.fromNow timeout now
    ∀ left ∈ Span.until deadline (now.after ((pollAnswers deadline now polls).take i)),
      left.nanos ≤ ms * 1000000

def ReadsInTime (timeout : Option Span) : Prop :=
  ∀ (began : Span) (r : DeadlineReader) (m : Moment) (call : Call) (cause : SystemError),
    r.deadline = Span.fromNow timeout began → began.nanos ≤ r.now.nanos → m.Sincere →
    (r.read m call).1 = some (.failed cause) → cause.kind = .timedOut →
    Span.Passed r.deadline (r.read m call).2.now

/-- A thread that waits for a reply for this time, whatever happens meanwhile, reports that it came too
late only when the time has passed. -/
def ThreadsInTime (timeout : Option Span) : Prop :=
  ∀ (messageRef : Int32) (now : Span) (x : ModuleContext) (events : List ClockEvent),
    (∀ reads, .steps reads ∈ events → ∀ m ∈ reads, m.Sincere) →
    let t := (TimedWaiter.start messageRef timeout now x).live events
    ∀ limit, t.waiter.result? = some (.error (.timeout limit)) →
      Span.Passed (Span.fromNow timeout now) t.now

theorem waitsInTime_of_askable (askable : ∀ d ∈ timeout, d.Askable) : WaitsInTime timeout :=
  fun _ _ honest h => passed_of_waitFor honest askable h

theorem asksInFull_of_askable (askable : ∀ d ∈ timeout, d.Askable) : AsksInFull timeout := by
  intro now polls i ms h
  dsimp only
  intro left hl
  have le := Span.le_after now ((pollAnswers (Span.fromNow timeout now) now polls).take i)
  have fits := Span.askable_later (Span.askable_until_fromNow askable now) le left hl
  have asked := asked_waitReadable h
  rw [askedAt_eq, Option.mem_def.mp hl, Option.map_some, Option.some.injEq] at asked
  rw [asked]
  exact (le_pollMillis_iff left).mpr fits

theorem readsInTime_of_askable (askable : ∀ d ∈ timeout, d.Askable) : ReadsInTime timeout := by
  intro began r m call cause deadline le sincere failed late
  refine r.passed_of_read sincere ?_ failed (.inr late)
  rw [deadline]
  exact Span.askable_later (Span.askable_until_fromNow askable began) le

theorem threadsInTime_of_askable (askable : ∀ d ∈ timeout, d.Askable) : ThreadsInTime timeout := by
  intro messageRef now x events sincere t limit ended
  have start : (TimedWaiter.start messageRef timeout now x).InTime timeout now :=
    ⟨rfl, Nat.le_refl _, trivial⟩
  obtain ⟨deadline, -, inTime⟩ := start.live askable sincere
  have done : t.waiter.phase = .done (.error (.timeout limit)) := by
    unfold Waiter.result? at ended
    split at ended
    · rename_i result hp
      rw [hp, Option.some.inj ended]
    · cases ended
  rw [done, deadline] at inTime
  exact inTime limit rfl

/-! ### A system that is exact -/

def punctual : Poll
  | none => .interrupted .zero
  | some ms => .expired (.ofMillis ms)

theorem punctual_honest : punctual.Honest := by
  intro asked took h
  cases asked with
  | none => cases h
  | some ms =>
    obtain rfl := PollAnswer.expired.inj h
    exact ⟨ms, rfl, Nat.le_refl _⟩

def idle : Moment := { polls := [punctual], turn := .move 0 }

theorem idle_sincere : idle.Sincere where
  honest := by
    intro poll hp
    obtain rfl := List.mem_singleton.mp hp
    exact punctual_honest
  waits := by
    intro poll hp asked took cause h
    obtain rfl := List.mem_singleton.mp hp
    cases asked <;> cases h
  reads := nofun

variable {d : Span}

/-- The system is asked once, and then its time is taken for the whole time. -/
theorem waitFor_punctual (d now : Span) : waitFor (some d) now [punctual] =
    ⟨[some (pollMillis d)], ⟨now.nanos + pollMillis d * 1000000⟩, some (.ok none)⟩ := by
  have left : askedAt (Span.fromNow (some d) now) now = some (pollMillis d) := by
    rw [askedAt_eq, Span.until_fromNow]
    rfl
  simp only [waitFor, pollAnswers, left, punctual, waitReadable_cons, PollAnswer.ends, PollAnswer.took,
    Span.ofMillis]

theorem comesTo_idle (d now : Span) : idle.comesTo (Span.fromNow (some d) now) now =
    some (.fail (.bare .timedOut), ⟨now.nanos + pollMillis d * 1000000⟩) := by
  simp only [Moment.comesTo, Moment.wait, idle, Span.until_fromNow, waitFor_punctual, Span.zero,
    Nat.add_zero]

/-- What the system was asked for is the whole time only if this could be asked for. -/
theorem askable_of_passed
    (h : Span.Passed (Span.fromNow (some d) now) ⟨now.nanos + pollMillis d * 1000000⟩) :
    d.Askable := by
  obtain ⟨e, he, passed⟩ := h
  obtain rfl := Option.some.inj he
  exact (le_pollMillis_iff d).mp (Nat.le_of_add_le_add_left passed)

theorem WaitsInTime.askable (h : WaitsInTime (some d)) : d.Askable := by
  have passed := h .zero [punctual] (List.forall_mem_singleton.mpr punctual_honest)
  rw [waitFor_punctual] at passed
  exact askable_of_passed (passed rfl)

theorem AsksInFull.askable (h : AsksInFull (some d)) : d.Askable := by
  have full := h .zero [punctual] 0 (pollMillis d)
  rw [waitFor_punctual] at full
  exact (le_pollMillis_iff d).mp (full rfl d (Span.until_fromNow (some d) .zero))

theorem ReadsInTime.askable (h : ReadsInTime (some d)) : d.Askable := by
  let r : DeadlineReader :=
    { inner := { unread := [] }, deadline := Span.fromNow (some d) .zero, now := .zero }
  obtain ⟨answer, ending, -⟩ := r.read_eq (.plain 1) (comesTo_idle d .zero)
  have passed := h .zero r idle (.plain 1) (.bare .timedOut) rfl (Nat.le_refl _) idle_sincere answer rfl
  rw [ending] at passed
  exact askable_of_passed passed

/-- A thread with time left takes the free read side of an open connection. -/
theorem Waiter.step_reach {router : ConnectionId} {c : Connection} (reaches : w.phase = .reach)
    (hr : x.router = some router) (hc : x.connection? router = some c) (left : w.left ≠ some .zero)
    (free : c.tryReader = .ok true) :
    w.step x = ({ w with phase := .lookAgain router }, holdReader x router true) := by
  simp only [step, reaches, hr, Option.bind_some, hc, if_neg left, free]

namespace TimedWaiter

variable {router : ConnectionId} {c : Connection} {r : Reception}

/-- A thread whose first read is late has read nothing when that read is over. -/
theorem step_receive_of_late {reads : List Moment} {cause : SystemError} {ending : Span}
    (receives : t.waiter.phase = .receive router) (hc : t.context.connection? router = some c)
    (buffer : t.waiter.buffer = none)
    (hs : readScript t.deadline t.now reads = [(.fail cause, ending)]) (late : cause.isLate) :
    ∃ x, t.step reads = { t with
      waiter := { t.looking with
        phase := .letGo router ⟨.error (.transport (.timedOut Header.size 0)), 0⟩ }
      now := ending
      context := x } := by
  have read : (c.incoming.scripted [.fail cause]).read (.plain Header.size) = (.failed cause,
      { c.incoming.scripted [] with calls := c.incoming.calls ++ [.plain Header.size] }) := rfl
  have made : overAt t.now [(Turn.fail cause, ending)] 1 = some ending := rfl
  have nothing : (c.incoming.scripted [Turn.fail cause]).unread.length -
      (c.incoming.scripted []).unread.length = 0 := Nat.sub_self _
  have phase : t.looking.phase = .receive router := receives
  have empty : t.looking.buffer = none := buffer
  have found := ModuleContext.connection?_setConnection_self hc
    { c with incoming := c.incoming.scripted [.fail cause] }
  simp only [step, receives, hc, hs, List.map_cons, List.map_nil, Waiter.step, phase, found, empty,
    Connection.receiveReply, Source.receive_of_late _ read late,
    ModuleContext.connection?_setConnection_self found, Option.elim_some, List.length_append,
    List.length_singleton, Nat.add_sub_cancel_left, made, nothing]
  exact ⟨_, rfl⟩

/-- A thread that was late gives up in two steps, which take no time. -/
theorem gives_up_of_late {e : FrameError} {consumed : Nat} (reads others : List Moment)
    (received : t.waiter.phase = .letGo router ⟨.error e, consumed⟩) (late : e.isTimeout = true) :
    ((t.step reads).step others).waiter.result? =
        some (.error (ModuleContext.waitedFor t.waiter.timeout)) ∧
      ((t.step reads).step others).now = t.now := by
  simp only [step, received, Waiter.step, looking, ModuleContext.failReception, late, if_true,
    Waiter.finish, Waiter.result?, and_self]

end TimedWaiter

open ModuleContext in
/-- A thread that nobody writes to reads once, and gives up when that read is late. -/
theorem live_idle (h : d ≠ .zero) :
    let t := (TimedWaiter.start 1 (some d) .zero quiet).live (List.replicate 6 (.steps [idle]))
    t.waiter.result? = some (.error (.timeout d)) ∧ t.now = ⟨0 + pollMillis d * 1000000⟩ := by
  let first := TimedWaiter.start 1 (some d) .zero quiet
  let reaches := { first with waiter := { first.looking with phase := .reach } }
  let looks := { first with
    waiter := { reaches.looking with phase := .lookAgain 0 }
    context := Waiter.holdReader quiet 0 true }
  let receives := { looks with waiter := { looks.looking with phase := .receive 0 } }
  have left : reaches.looking.left ≠ some .zero := by
    rw [show reaches.looking.left = some d from Span.until_fromNow (some d) .zero]
    exact fun none => h (Option.some.inj none)
  have script : readScript receives.deadline receives.now [idle] =
      [(.fail (.bare .timedOut), ⟨0 + pollMillis d * 1000000⟩)] := by
    show readScript (Span.fromNow (some d) .zero) .zero [idle] = _
    rw [readScript, comesTo_idle]
    rfl
  have look : first.step [idle] = reaches := rfl
  have reach : reaches.step [idle] = looks := by
    rw [reaches.step_of_still _ fun _ receives => WaitPhase.noConfusion receives,
      Waiter.step_reach rfl rfl rfl left rfl]
    rfl
  have lookAgain : looks.step [idle] = receives := rfl
  obtain ⟨x, receive⟩ := receives.step_receive_of_late rfl rfl rfl script (.inr rfl)
  have run : first.live (List.replicate 6 (.steps [idle])) =
      ((receives.step [idle]).step [idle]).step [idle] := by
    simp only [TimedWaiter.live, List.replicate, List.foldl_cons, List.foldl_nil, TimedWaiter.happen,
      look, reach, lookAgain]
  have ends := TimedWaiter.gives_up_of_late [idle] [idle] (congrArg (·.waiter.phase) receive) rfl
  rw [← run, receive] at ends
  exact ends

theorem ThreadsInTime.askable (h : ThreadsInTime (some d)) : d.Askable := by
  by_cases none : d = .zero
  · rw [none]
    exact Nat.zero_le _
  · obtain ⟨result, ending⟩ := live_idle none
    have passed := h 1 .zero .quiet (List.replicate 6 (.steps [idle])) ?_ d result
    · rw [ending] at passed
      exact askable_of_passed passed
    · intro reads hr m hm
      obtain rfl := ClockEvent.steps.inj (List.eq_of_mem_replicate hr)
      obtain rfl := List.mem_singleton.mp hm
      exact idle_sincere

/-- A time is kept, however the system interrupts or wakes the waits, exactly if it can be asked for at
once. -/
theorem keepsTime_iff (timeout : Option Span) :
    (WaitsInTime timeout ↔ ∀ d ∈ timeout, d.Askable) ∧
      (AsksInFull timeout ↔ ∀ d ∈ timeout, d.Askable) ∧
      (ReadsInTime timeout ↔ ∀ d ∈ timeout, d.Askable) ∧
      (ThreadsInTime timeout ↔ ∀ d ∈ timeout, d.Askable) := by
  refine ⟨⟨?_, waitsInTime_of_askable⟩, ⟨?_, asksInFull_of_askable⟩, ⟨?_, readsInTime_of_askable⟩,
    ⟨?_, threadsInTime_of_askable⟩⟩ <;> rintro kept d ⟨⟩
  all_goals exact kept.askable

/-- Nothing comes, and a wait for a millisecond more than the system can be asked for is over a
millisecond early. So is a read up to this time, and a thread reports that its reply came too late. A
stream that fails as one that is late makes a read late at any time. -/
theorem gives_up_a_millisecond_early :
    let timeout := some (Span.ofMillis 2147483648)
    let early := Span.ofMillis 2147483647
    let wait := waitFor timeout .zero [punctual]
    let reader : DeadlineReader :=
      { inner := { unread := [] }, deadline := Span.fromNow timeout .zero, now := .zero }
    let waited := (TimedWaiter.start 1 timeout .zero .quiet).live (List.replicate 6 (.steps [idle]))
    let broken : Moment := { polls := [fun _ => .woken .zero [true]], turn := .fail (.bare .timedOut) }
    punctual.Honest ∧ ¬ Span.Passed (Span.fromNow timeout .zero) early ∧
      (wait.asked = [some 2147483647] ∧ wait.result = some (.ok none) ∧ wait.now = early) ∧
      ((reader.read idle (.plain 1)).1 = some (.failed (.bare .timedOut)) ∧
        (reader.read idle (.plain 1)).2.now = early) ∧
      (waited.waiter.result? = some (.error (.timeout (.ofMillis 2147483648))) ∧ waited.now = early) ∧
      (reader.read broken (.plain 1)).1 = some (.failed (.bare .timedOut)) ∧
        (reader.read broken (.plain 1)).2.now = .zero := by
  have asked : pollMillis (.ofMillis 2147483648) = 2147483647 := by decide
  have ending : (⟨0 + 2147483647 * 1000000⟩ : Span) = .ofMillis 2147483647 := by decide
  have waits : waitFor (some (.ofMillis 2147483648)) .zero [punctual] =
      ⟨[some 2147483647], .ofMillis 2147483647, some (.ok none)⟩ := by
    rw [waitFor_punctual, asked]
    exact congrArg (Wait.mk _ · _) ending
  have thread := live_idle (d := .ofMillis 2147483648) (by decide)
  intro timeout early wait reader
  obtain ⟨answer, now, -⟩ := reader.read_eq (.plain 1) (comesTo_idle ..)
  rw [asked] at thread now
  refine ⟨punctual_honest, ?_, ?_, ⟨answer, now.trans ending⟩, ⟨thread.1, thread.2.trans ending⟩,
    rfl, rfl⟩
  · rintro ⟨d, ⟨⟩, passed⟩
    exact absurd passed (by decide)
  · show (waitFor _ _ _).asked = _ ∧ (waitFor _ _ _).result = _ ∧ (waitFor _ _ _).now = _
    rw [waits]
    exact ⟨rfl, rfl, rfl⟩

end ModuleLink
