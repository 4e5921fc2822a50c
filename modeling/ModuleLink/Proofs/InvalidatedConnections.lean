import Mathlib.Data.List.Induction
import ModuleLink.Proofs.WireOrder

/-! # Threads that use an invalidated connection

A call looks whether the connection is open before it waits for the lock of its side, and does not look
again when it has the lock. A call that begins after an invalidation is refused. One that has looked
before and still waits is not: it gets the lock, and moves bytes on what is left of the connection. -/
namespace ModuleLink

/-- A step of those who use a connection, or something that happens to its streams: the other end
writes, takes or leaves, or a socket is shut down. -/
inductive ChannelEvent
  | user (event : ConnectionEvent)
  | streams (incoming : Source) (outgoing : Sink)

namespace ConnectionThreads

def happen (s : ConnectionThreads) : ChannelEvent → ConnectionThreads
  | .user event => s.step event
  | .streams incoming outgoing => { s with connection := { s.connection with incoming, outgoing } }

def live (s : ConnectionThreads) (events : List ChannelEvent) : ConnectionThreads :=
  events.foldl happen s

end ConnectionThreads

/-- A call that had its lock is not refused as one that found the connection closed. -/
def CallPhase.Served : CallPhase → Prop
  | .idle | .reach _ | .move .. => True
  | .letGo _ result => result.isRefused = false

namespace CallThread

def hasLock (t : CallThread) : Bool :=
  match t.phase with
  | .idle | .reach _ => false
  | .move .. | .letGo .. => true

def settled (t : CallThread) : Nat := t.returned.length + if t.hasLock then 1 else 0

theorem length_le_settled (t : CallThread) : t.returned.length ≤ t.settled := Nat.le_add_right ..

/-- Later, all calls of a thread that had no lock are refused, and it has none for them. -/
structure Refrains (name : String) (t later : CallThread) : Prop where
  refused : ∀ call ∈ later.returned.drop t.settled, call.2 = ⟨[], .error (.closed name)⟩
  apart : later.hasLock = true → later.returned.length < t.settled

inductive Step (c : Connection) : CallThread → CallThread → Prop
  | rest (t : CallThread) : Step c t t
  | looks {d : Demand} {todo : List Demand} {returned : List (Demand × Filled)}
      (isOpen : c.isOpen = true) : Step c ⟨d :: todo, .idle, returned⟩ ⟨todo, .reach d, returned⟩
  | refused {d : Demand} {todo : List Demand} {returned : List (Demand × Filled)}
      (closed : c.isOpen = false) : Step c ⟨d :: todo, .idle, returned⟩
        ⟨todo, .idle, returned ++ [(d, ⟨[], .error (.closed c.name)⟩)]⟩
  | goesOn {t : CallThread} (phase : CallPhase) (same : current { t with phase } = t.current)
      (locks : hasLock { t with phase } = true) (served : phase.Served) : Step c t { t with phase }
  | returns {d : Demand} {result : Filled} {todo : List Demand} {returned : List (Demand × Filled)} :
      Step c ⟨todo, .letGo d result, returned⟩ ⟨todo, .idle, returned ++ [(d, result)]⟩

/-- A thread on a closed connection: it is still in the call that it was in, or it is out of it and had
all others refused. -/
inductive Follows (name : String) (t later : CallThread) : Prop
  | within (todo : later.todo = t.todo) (returned : later.returned = t.returned)
      (same : later.current = t.current) (busy : t.current.isSome = true)
      (served : t.phase.Served → later.phase.Served)
  | beyond (done : List Demand) (ended : List (Demand × Filled)) (idle : later.phase = .idle)
      (calls : t.todo = done ++ later.todo) (own : ended.map (·.1) = t.current.toList)
      (served : t.phase.Served → ∀ call ∈ ended, call.2.isRefused = false)
      (returned : later.returned =
        t.returned ++ ended ++ done.map fun d => (d, ⟨[], .error (.closed name)⟩))

variable {c : Connection} {t now later : CallThread}

theorem Follows.refl (name : String) (t : CallThread) : t.Follows name t := by
  obtain ⟨todo, phase, returned⟩ := t
  cases phase with
  | idle =>
    exact .beyond [] [] rfl rfl rfl (fun _ _ h => absurd h List.not_mem_nil) (by simp)
  | reach | move | letGo => exact .within rfl rfl rfl rfl fun served => served

/-- A thread whose connection is closed ends its call, and is refused all others. -/
theorem Follows.step (follows : t.Follows c.name now) (closed : c.isOpen = false)
    (step : Step c now later) : t.Follows c.name later := by
  cases step with
  | rest => exact follows
  | looks isOpen => exact absurd (isOpen.symm.trans closed) Bool.noConfusion
  | @refused d todo returned =>
    cases follows with
    | within _ _ same busy => exact absurd (same ▸ busy) Bool.noConfusion
    | beyond done ended _ calls own served results =>
      refine .beyond (done ++ [d]) ended rfl ?_ own served ?_
      · rw [calls, List.append_assoc]
        rfl
      · dsimp only at results ⊢
        rw [results, List.map_append, List.append_assoc]
        rfl
  | goesOn phase same locks served =>
    cases follows with
    | within todo returned before busy =>
      exact .within todo returned (same.trans before) busy fun _ => served
    | beyond _ _ idle =>
      have nothing : now.current = none := by rw [current, idle]
      rw [nothing] at same
      cases phase <;> cases same
      cases locks
  | @returns d result todo returned =>
    cases follows with
    | within todo returned same busy served =>
      refine .beyond [] [(d, result)] rfl todo.symm (same ▸ rfl)
        (fun before => List.forall_mem_singleton.mpr (served before)) ?_
      rw [List.map_nil, List.append_nil, ← returned]
    | beyond _ _ idle => cases idle

/-- A thread that does not stand before a lock, or stays there, refrains from further calls. -/
theorem Follows.refrains {name : String} (follows : t.Follows name later)
    (stays : ∀ d, t.phase = .reach d → later = t) : t.Refrains name later := by
  obtain ⟨todo, phase, returned⟩ := t
  cases follows with
  | within _ same current busy =>
    refine ⟨fun call hc => ?_, fun locked => ?_⟩
    · have none := List.drop_eq_nil_of_le (length_le_settled ⟨todo, phase, returned⟩)
      rw [same, none] at hc
      cases hc
    · rw [same]
      cases phase with
      | idle => cases busy
      | reach d =>
        rw [stays d rfl] at locked
        cases locked
      | move | letGo => exact Nat.lt_succ_self _
  | beyond done ended idle _ own _ results =>
    have own' : (returned ++ ended).length = settled ⟨todo, phase, returned⟩ := by
      have size := congrArg List.length own
      rw [List.length_map] at size
      rw [List.length_append, size, settled]
      cases phase with
      | idle | move | letGo => rfl
      | reach d =>
        rw [stays d rfl] at idle
        cases idle
    refine ⟨fun call hc => ?_, fun locked => ?_⟩
    · rw [results, List.drop_left' own'] at hc
      obtain ⟨d, -, rfl⟩ := List.mem_map.mp hc
      rfl
    · rw [hasLock, idle] at locked
      cases locked

/-- A call that had looked and gets through was not refused. -/
theorem Follows.served {name : String} {d : Demand} {call : Demand × Filled}
    (follows : t.Follows name later) (reach : t.phase = .reach d)
    (first : later.returned[t.returned.length]? = some call) :
    call.1 = d ∧ call.2.isRefused = false := by
  obtain ⟨todo, phase, returned⟩ := t
  obtain rfl : phase = .reach d := reach
  cases follows with
  | within _ same =>
    rw [same, List.getElem?_eq_none (Nat.le_refl _)] at first
    cases first
  | beyond done ended _ _ own served results =>
    obtain ⟨first', rfl, asked⟩ := List.map_eq_singleton_iff.mp own
    rw [results, List.append_assoc, List.getElem?_append_right (Nat.le_refl _), Nat.sub_self] at first
    obtain rfl := Option.some.inj first
    exact ⟨asked, served trivial _ (List.mem_singleton.mpr rfl)⟩

/-- A thread before a lock waits for it or gets it. -/
theorem Step.of_reach {d : Demand} (step : Step c t now) (reach : t.phase = .reach d) :
    now = t ∨ now.hasLock = true ∧ now.returned = t.returned := by
  cases step with
  | rest => exact .inl rfl
  | looks | refused | returns => cases reach
  | goesOn phase _ locks _ => exact .inr ⟨locks, rfl⟩

end CallThread

/-! ### What a stream answers is no refusal -/

namespace Progress

variable {same : Transfer} {result : Filled}

theorem served_ofWrite {answer : WriteAnswer} {after : Nat → Transfer}
    (h : ofWrite answer same after = .finished result) : result.isRefused = false := by
  unfold ofWrite at h
  split at h
  · obtain rfl := Progress.finished.inj h
    rfl
  · cases h
  · split at h
    · cases h
    · obtain rfl := Progress.finished.inj h
      unfold Sink.writeFailure
      split <;> rfl

theorem served_ofRead {answer : ReadAnswer} {expected : Nat} {got : Bytes} {after : Bytes → Transfer}
    (h : ofRead answer expected got same after = .finished result) : result.isRefused = false := by
  unfold ofRead at h
  split at h
  · obtain rfl := Progress.finished.inj h
    rfl
  · cases h
  · split at h
    · cases h
    · obtain rfl := Progress.finished.inj h
      unfold Source.readFailure
      split <;> rfl

end Progress

namespace Transfer

variable (c : Connection) (rest : Transfer)

/-- A call of a stream changes the streams of the connection only. -/
theorem step_connection :
    (rest.step c).2.name = c.name ∧ (rest.step c).2.isOpen = c.isOpen := by
  cases rest <;> simp only [step] <;> split <;> exact ⟨rfl, rfl⟩

theorem served_step {result : Filled} (h : (rest.step c).1 = .finished result) :
    result.isRefused = false := by
  have done {got : Bytes} (h : Progress.finished ⟨got, .ok ()⟩ = .finished result) :
      result.isRefused = false := by
    obtain rfl := Progress.finished.inj h
    rfl
  cases rest with
  | plain | gathered =>
    simp only [step] at h
    split at h
    · exact done h
    · dsimp only at h
      exact Progress.served_ofWrite h
  | fill | scattered =>
    simp only [step] at h
    split at h
    · exact done h
    · exact Progress.served_ofRead h

end Transfer

namespace ConnectionThreads

variable {s : ConnectionThreads} {i : Nat} {t : CallThread}

@[simp] theorem setHolder_connection (s : ConnectionThreads) (d : Demand) (h : Option Nat) :
    (s.setHolder d h).connection = s.connection := by
  unfold setHolder
  split <;> rfl

@[simp] theorem setHolder_threads (s : ConnectionThreads) (d : Demand) (h : Option Nat) :
    (s.setHolder d h).threads = s.threads := by
  unfold setHolder
  split <;> rfl

@[simp] theorem lock_connection (s : ConnectionThreads) (i : Nat) (d : Demand) :
    (s.lock i d).connection = s.connection := by
  unfold lock
  split <;> simp

@[simp] theorem lock_threads (s : ConnectionThreads) (i : Nat) (d : Demand) :
    (s.lock i d).threads = s.threads := by
  unfold lock
  split <;> simp

/-- A step of a thread, seen from the thread and from the connection. -/
theorem stepThread_step (ht : s.threads[i]? = some t) :
    ∃ now, CallThread.Step s.connection t now ∧ (s.stepThread i t).threads = s.threads.set i now ∧
      (s.stepThread i t).connection.name = s.connection.name ∧
      (s.stepThread i t).connection.isOpen = s.connection.isOpen ∧
      (t.hasLock = false → (s.stepThread i t).connection = s.connection) := by
  obtain ⟨hi, same⟩ := List.getElem?_eq_some_iff.mp ht
  have rest : s.threads = s.threads.set i t := by rw [← same, List.set_getElem_self hi]
  obtain ⟨todo, phase, returned⟩ := t
  cases phase with
  | idle =>
    cases todo with
    | nil => exact ⟨_, .rest _, rest, rfl, rfl, fun _ => rfl⟩
    | cons d todo =>
      simp only [stepThread, Connection.ensureOpen]
      cases isOpen : s.connection.isOpen with
      | true => exact ⟨_, .looks isOpen, rfl, rfl, isOpen, fun _ => rfl⟩
      | false => exact ⟨_, .refused isOpen, rfl, rfl, isOpen, fun _ => rfl⟩
  | reach d =>
    simp only [stepThread]
    split
    · exact ⟨_, .rest _, rest, rfl, rfl, fun _ => rfl⟩
    · cases start : d.start with
      | ok transfer =>
        refine ⟨_, .goesOn (.move d transfer) rfl rfl trivial, ?_⟩
        simp [setThread]
      | error e =>
        have served : (CallPhase.letGo d ⟨[], .error e⟩).Served :=
          Filled.isRefused_eq_false fun name closed =>
            (Demand.start_error start).2 name (Except.error.inj closed)
        refine ⟨_, .goesOn (.letGo d ⟨[], .error e⟩) rfl rfl served, ?_⟩
        simp [setThread]
  | move d transfer =>
    obtain ⟨name, isOpen⟩ := transfer.step_connection s.connection
    have served := @Transfer.served_step s.connection transfer
    simp only [stepThread]
    generalize transfer.step s.connection = out at name isOpen served ⊢
    obtain ⟨next | result, connection⟩ := out
    · exact ⟨_, .goesOn (.move d next) rfl rfl trivial, rfl, name, isOpen, Bool.noConfusion⟩
    · exact ⟨_, .goesOn (.letGo d result) rfl rfl (served rfl), rfl, name, isOpen,
        Bool.noConfusion⟩
  | letGo d result =>
    refine ⟨_, .returns, ?_⟩
    simp [stepThread, setThread]

theorem happen_thread (ht : s.threads[i]? = some t) (e : ChannelEvent) :
    ∃ now, (s.happen e).threads[i]? = some now ∧ CallThread.Step s.connection t now := by
  cases e with
  | streams incoming outgoing => exact ⟨t, ht, .rest t⟩
  | user event =>
    cases event with
    | invalidate => exact ⟨t, ht, .rest t⟩
    | thread j =>
      simp only [happen, step]
      cases hj : s.threads[j]? with
      | none => exact ⟨t, ht, .rest t⟩
      | some other =>
        obtain ⟨now, step, threads, -⟩ := stepThread_step hj
        dsimp only
        rw [threads]
        by_cases own : j = i
        · subst own
          obtain rfl := Option.some.inj (hj.symm.trans ht)
          exact ⟨now, List.getElem?_set_self (List.getElem?_eq_some_iff.mp hj).1, step⟩
        · exact ⟨t, (List.getElem?_set_ne own).trans ht, .rest t⟩

theorem happen_closed (closed : s.connection.isOpen = false) (e : ChannelEvent) :
    (s.happen e).connection.isOpen = false ∧ (s.happen e).connection.name = s.connection.name := by
  cases e with
  | streams => exact ⟨closed, rfl⟩
  | user event =>
    cases event with
    | invalidate => exact ⟨rfl, rfl⟩
    | thread j =>
      simp only [happen, step]
      cases hj : s.threads[j]? with
      | none => exact ⟨closed, rfl⟩
      | some t =>
        obtain ⟨-, -, -, name, isOpen, -⟩ := stepThread_step hj
        exact ⟨isOpen.trans closed, name⟩

theorem live_append (s : ConnectionThreads) (done : List ChannelEvent) (e : ChannelEvent) :
    s.live (done ++ [e]) = (s.live done).happen e := List.foldl_append ..

theorem live_closed (closed : s.connection.isOpen = false) (events : List ChannelEvent) :
    (s.live events).connection.isOpen = false ∧
      (s.live events).connection.name = s.connection.name := by
  induction events using List.reverseRec with
  | nil => exact ⟨closed, rfl⟩
  | append_singleton done e ih =>
    obtain ⟨isOpen, name⟩ := happen_closed ih.1 e
    rw [live_append]
    exact ⟨isOpen, name.trans ih.2⟩

theorem follows_live (closed : s.connection.isOpen = false) (ht : s.threads[i]? = some t)
    (events : List ChannelEvent) :
    ∃ later, (s.live events).threads[i]? = some later ∧ t.Follows s.connection.name later := by
  induction events using List.reverseRec with
  | nil => exact ⟨t, ht, .refl _ t⟩
  | append_singleton done e ih =>
    obtain ⟨now, hnow, follows⟩ := ih
    obtain ⟨later, hlater, step⟩ := happen_thread hnow e
    obtain ⟨isOpen, name⟩ := live_closed closed done
    rw [live_append]
    exact ⟨later, hlater, name ▸ (name.symm ▸ follows).step isOpen step⟩

/-- A thread that stands before a lock and refrains from taking it stays where it is. -/
theorem stays_of_refrains {name : String} {d : Demand} {events : List ChannelEvent}
    (ht : s.threads[i]? = some t) (reach : t.phase = .reach d)
    (refrains : ∀ done, done <+: events → ∀ later, (s.live done).threads[i]? = some later →
      t.Refrains name later) :
    (s.live events).threads[i]? = some t := by
  induction events using List.reverseRec with
  | nil => exact ht
  | append_singleton done e ih =>
    have stays := ih fun earlier before => refrains earlier (before.trans (List.prefix_append ..))
    obtain ⟨later, hlater, step⟩ := happen_thread stays e
    rw [← live_append] at hlater
    rcases step.of_reach reach with rfl | ⟨locks, same⟩
    · exact hlater
    · have early := (refrains _ (List.prefix_refl _) later hlater).apart locks
      rw [same, CallThread.settled, CallThread.hasLock, reach] at early
      exact absurd early (Nat.lt_irrefl _)

/-- Of the calls that had no lock when a connection was invalidated all are refused, and none makes a
call on its streams, exactly if no thread that stood before a lock gets it. If one does, its call
is not refused. -/
theorem refrains_iff (s : ConnectionThreads) (events : List ChannelEvent) :
    let closed := s.step .invalidate
    ((∀ done, done <+: events → ∀ (i : Nat) (t later : CallThread), s.threads[i]? = some t →
        (closed.live done).threads[i]? = some later → t.Refrains s.connection.name later) ↔
      ∀ done, done <+: events → ∀ (i : Nat) (t : CallThread) (d : Demand),
        s.threads[i]? = some t → t.phase = .reach d → (closed.live done).threads[i]? = some t) ∧
    (∀ (i : Nat) (t later : CallThread) (d : Demand) (call : Demand × Filled),
      s.threads[i]? = some t → t.phase = .reach d → (closed.live events).threads[i]? = some later →
      later.returned[t.returned.length]? = some call → call.1 = d ∧ call.2.isRefused = false) ∧
    ∀ (i : Nat) (t : CallThread), (closed.live events).threads[i]? = some t → t.hasLock = false →
      ((closed.live events).step (.thread i)).connection = (closed.live events).connection := by
  intro closed
  have isClosed : closed.connection.isOpen = false := rfl
  have follows {i : Nat} {t later : CallThread} {done : List ChannelEvent}
      (ht : s.threads[i]? = some t) (hlater : (closed.live done).threads[i]? = some later) :
      t.Follows s.connection.name later := by
    obtain ⟨there, hthere, follows⟩ := follows_live (s := closed) isClosed ht done
    obtain rfl := Option.some.inj (hthere.symm.trans hlater)
    exact follows
  refine ⟨⟨fun refrains done before i t d ht reach => ?_, fun stays done before i t later ht hlater =>
    ?_⟩, fun i t later d call ht reach hlater => (follows ht hlater).served reach,
    fun i t ht free => ?_⟩
  · exact stays_of_refrains ht reach fun earlier first later =>
      refrains earlier (first.trans before) i t later ht
  · refine (follows ht hlater).refrains fun d reach => ?_
    exact Option.some.inj (hlater.symm.trans (stays done before i t d ht reach))
  · obtain ⟨-, -, -, -, -, same⟩ := stepThread_step ht
    simp only [step, ht]
    exact same free

def pipeConnection : Connection where
  name := "connection"
  kind := .pipe
  peer := "peer"

/-- A thread has looked and stands before the lock, which nobody has. -/
def beforeTheLock : ConnectionThreads := (start pipeConnection [[.writeAll [1, 2, 3]]]).run [.thread 0]

/-- The connection is invalidated, and then the thread gets the lock and writes. -/
theorem writes_after_invalidation :
    let closed := beforeTheLock.step .invalidate
    let after := closed.run [.thread 0, .thread 0, .thread 0, .thread 0]
    beforeTheLock.writer = none ∧ closed.connection.isOpen = false ∧
      closed.connection.outgoing.written = [] ∧ after.connection.outgoing.written = [1, 2, 3] ∧
      after.threads.map (·.returned) = [[(.writeAll [1, 2, 3], ⟨[], .ok ()⟩)]] :=
  ⟨rfl, rfl, rfl, rfl, rfl⟩

def behindTheLock : ConnectionThreads :=
  (start pipeConnection [[.writeAll [1, 2, 3]], [.writeAll [4]]]).run [.thread 0, .thread 0]

theorem refrains_iff_behindTheLock :
    let closed := behindTheLock.step .invalidate
    let events : List ChannelEvent := [1, 0, 0, 0].map fun i => .user (.thread i)
    (closed.live events).connection.outgoing.written = [1, 2, 3] ∧
      (closed.live events).threads.map (·.returned) =
        [[(.writeAll [1, 2, 3], ⟨[], .ok ()⟩)],
          [(.writeAll [4], ⟨[], .error (.closed "connection")⟩)]] ∧
      ∀ done, done <+: events → ∀ (i : Nat) (t later : CallThread),
        behindTheLock.threads[i]? = some t → (closed.live done).threads[i]? = some later →
        t.Refrains "connection" later := by
  intro closed events
  obtain ⟨iff, -, -⟩ := refrains_iff behindTheLock events
  refine ⟨rfl, rfl, iff.mpr fun done _ i t d ht reach => ?_⟩
  have phases : behindTheLock.threads.map (·.phase) =
    [.move (.writeAll [1, 2, 3]) (.plain [1, 2, 3]), .idle] := rfl
  have among : .reach d ∈ behindTheLock.threads.map (·.phase) :=
    List.mem_map.mpr ⟨t, List.mem_of_getElem? ht, reach⟩
  simp [phases] at among

end ConnectionThreads

end ModuleLink
