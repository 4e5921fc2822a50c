import ModuleLink.ConnectionThreads
import ModuleLink.Proofs.WriteLoops

/-! # What one step of a thread does to the write side

A thread gets the lock of the write side with a whole message to write, writes the next bytes of it,
or lets the lock go when nothing is left. Its other steps leave the write side alone. -/
namespace ModuleLink

/-- The bytes that a call puts on the stream if it succeeds. -/
def Demand.message : Demand → Bytes
  | writeAll bytes => bytes
  | writeVectored segments expected =>
    if segments.flatten.length = expected then segments.flatten else []
  | readExact _ | readScattered .. => []

/-- How a call ends that writes without a failure of the stream. -/
def Demand.verdict (d : Demand) : Except TransportError Unit := d.start.map fun _ => ()

namespace Transfer

def writes : Transfer → Bool
  | plain _ | gathered _ => true
  | fill .. | scattered .. => false

def left : Transfer → Bytes
  | plain rest => rest
  | gathered segments => segments.flatten
  | fill .. | scattered .. => []

/-- Segments that are still to be written are not all empty. -/
def Proper : Transfer → Prop
  | gathered segments => segments ≠ [] → segments.flatten ≠ []
  | _ => True

variable {c : Connection} {rest : Transfer}

theorem Proper.of_reads (hr : rest.writes = false) : rest.Proper := by
  cases rest with
  | plain | gathered => cases hr
  | fill | scattered => trivial

theorem step_of_reads (hr : rest.writes = false) :
    (rest.step c).2.outgoing = c.outgoing ∧
      ∀ next, (rest.step c).1 = .more next → next.writes = false := by
  have ofRead : ∀ (answer : ReadAnswer) (expected : Nat) (got : Bytes) (same : Transfer)
      (after : Bytes → Transfer), same.writes = false → (∀ b, (after b).writes = false) →
      ∀ next, Progress.ofRead answer expected got same after = .more next → next.writes = false := by
    intro answer expected got same after hs ha next hn
    unfold Progress.ofRead at hn
    split at hn
    · cases hn
    · exact Progress.more.inj hn ▸ ha _
    · split at hn
      · exact Progress.more.inj hn ▸ hs
      · cases hn
  cases rest with
  | plain | gathered => cases hr
  | fill expected got =>
    by_cases full : expected ≤ got.length
    · have now : (fill expected got).step c = (.finished ⟨got, .ok ()⟩, c) := if_pos full
      rw [now]
      exact ⟨rfl, nofun⟩
    · have now : (fill expected got).step c = _ := if_neg full
      rw [now]
      exact ⟨rfl, ofRead _ _ _ _ _ rfl fun _ => rfl⟩
  | scattered buffers expected got =>
    by_cases full : buffers = []
    · have now : (scattered buffers expected got).step c = (.finished ⟨got, .ok ()⟩, c) := if_pos full
      rw [now]
      exact ⟨rfl, nofun⟩
    · have now : (scattered buffers expected got).step c = _ := if_neg full
      rw [now]
      exact ⟨rfl, ofRead _ _ _ _ _ rfl fun _ => rfl⟩

/-- One call on a willing stream moves bytes from what is left to the stream, and the last one finds
nothing left. -/
structure Writes (rest : Transfer) (c : Connection) : Prop where
  willing : (rest.step c).2.outgoing.Willing
  moves : ∃ wrote, (rest.step c).2.outgoing.written = c.outgoing.written ++ wrote ∧
    ((∃ next, (rest.step c).1 = .more next ∧ next.writes ∧ next.Proper ∧
        rest.left = wrote ++ next.left) ∨
      (rest.step c).1 = .finished ⟨[], .ok ()⟩ ∧ wrote = [] ∧ rest.left = [])

/-- A write that took something, or is repeated. -/
theorem Writes.of_write {call : Call} {bytes : Bytes} {same : Transfer} {after : Nat → Transfer}
    {answer : WriteAnswer} {outgoing : Sink} (willing : c.outgoing.Willing) (hb : bytes ≠ [])
    (hc : 0 < call.room c.outgoing.gathers) (hw : c.outgoing.write call bytes = (answer, outgoing))
    (now : rest.step c = (.ofWrite answer same after, { c with outgoing })) (all : rest.left = bytes)
    (repeated : same = rest) (proper : rest.Proper ∧ rest.writes)
    (ahead : ∀ n, (after n).writes ∧ (after n).Proper ∧ (after n).left = bytes.drop n) :
    rest.Writes c := by
  obtain ⟨still, ⟨n, rfl⟩ | ⟨cause, rfl, retried⟩⟩ := willing.write hw hb hc
  · obtain ⟨writes, proper, left⟩ := ahead (n + 1)
    refine ⟨by rw [now]; exact still, bytes.take (n + 1), ?_,
      .inl ⟨after (n + 1), ?_, writes, proper, ?_⟩⟩
    · rw [now]
      exact Sink.write_took hw
    · rw [now]
      rfl
    · rw [all, left, List.take_append_drop]
  · refine ⟨by rw [now]; exact still, [], ?_, .inl ⟨rest, ?_, proper.2, proper.1, rfl⟩⟩
    · rw [now, List.append_nil]
      exact Sink.write_failed hw
    · rw [now, repeated]
      exact if_pos retried

theorem writes_of_willing (willing : c.outgoing.Willing) (hw : rest.writes) (proper : rest.Proper) :
    rest.Writes c := by
  cases rest with
  | fill | scattered => cases hw
  | plain bytes =>
    by_cases hb : bytes = []
    · have now : (plain bytes).step c = (.finished ⟨[], .ok ()⟩, c) := if_pos hb
      exact ⟨by rw [now]; exact willing, [], by rw [now, List.append_nil],
        .inr ⟨by rw [now], rfl, hb⟩⟩
    · have room : 0 < (Call.plain bytes.length).room c.outgoing.gathers := List.length_pos_iff.mpr hb
      exact .of_write willing hb room rfl (if_neg hb) rfl rfl ⟨trivial, rfl⟩
        fun n => ⟨rfl, trivial, rfl⟩
  | gathered segments =>
    by_cases hs : segments = []
    · have now : (gathered segments).step c = (.finished ⟨[], .ok ()⟩, c) := if_pos hs
      exact ⟨by rw [now]; exact willing, [], by rw [now, List.append_nil],
        .inr ⟨by rw [now], rfl, by rw [hs]; rfl⟩⟩
    · have room : 0 < (Call.spread (segments.map List.length)).room c.outgoing.gathers := by
        apply Call.room_spread_pos
        rw [Sink.capacity_map_length]
        exact List.length_pos_iff.mpr (proper hs)
      exact .of_write willing (proper hs) room rfl (if_neg hs) rfl rfl ⟨proper, rfl⟩
        fun n => ⟨rfl, Sink.flatten_advance_ne_nil, Sink.flatten_advance segments n⟩

end Transfer

namespace Demand

variable {d : Demand} {rest : Transfer}

/-- A call that starts to move bytes moves in one direction, and a writing one has its whole message
to write. -/
theorem start_ok (h : d.start = .ok rest) :
    rest.writes = d.writes ∧ rest.Proper ∧ rest.left = d.message := by
  cases d with
  | writeAll bytes =>
    obtain rfl := Except.ok.inj h
    exact ⟨rfl, trivial, rfl⟩
  | writeVectored segments expected =>
    simp only [start, Sink.capacity_map_length] at h
    split at h
    · rename_i sum
      obtain rfl := Except.ok.inj h
      refine ⟨rfl, Sink.flatten_advance_ne_nil, ?_⟩
      rw [message, if_pos sum]
      exact Sink.flatten_advance segments 0
    · cases h
  | readExact length =>
    obtain rfl := Except.ok.inj h
    exact ⟨rfl, trivial, rfl⟩
  | readScattered first second =>
    obtain rfl := Except.ok.inj h
    exact ⟨rfl, trivial, rfl⟩

theorem start_error {e : TransportError} (h : d.start = .error e) :
    d.message = [] ∧ ∀ name, e ≠ .closed name := by
  cases d with
  | writeAll | readExact | readScattered => cases h
  | writeVectored segments expected =>
    simp only [start, Sink.capacity_map_length] at h
    split at h
    · cases h
    · rename_i sum
      obtain rfl := Except.error.inj h
      exact ⟨if_neg sum, nofun⟩

end Demand

def Filled.isRefused : Filled → Bool
  | ⟨_, .error (.closed _)⟩ => true
  | _ => false

theorem Filled.isOk_of_isRefused {f : Filled} (h : f.isRefused = true) : f.result.isOk = false := by
  obtain ⟨got, _ | _⟩ := f
  · rfl
  · cases h

theorem Filled.isRefused_eq_false {f : Filled} (h : ∀ name, f.result ≠ .error (.closed name)) :
    f.isRefused = false := by
  unfold isRefused
  split
  · exact absurd rfl (h _)
  · rfl

theorem Demand.isRefused_eq_false {d : Demand} {result : Filled} (h : result.result = d.verdict) :
    result.isRefused = false := by
  refine Filled.isRefused_eq_false fun name closed => ?_
  rw [h, verdict] at closed
  cases hs : d.start with
  | ok =>
    rw [hs] at closed
    cases closed
  | error e =>
    rw [hs] at closed
    exact (start_error hs).2 name (Except.error.inj closed)

namespace CallThread

def current (t : CallThread) : Option Demand :=
  match t.phase with
  | .idle => none
  | .reach d | .move d _ | .letGo d _ => some d

def calls (t : CallThread) : List Demand := t.returned.map (·.1) ++ t.current.toList ++ t.todo

def holds (t : CallThread) : Option Demand :=
  match t.phase with
  | .idle | .reach _ => none
  | .move d _ | .letGo d _ => if d.writes then some d else none

def left (t : CallThread) : Bytes :=
  match t.phase with
  | .move _ rest => rest.left
  | _ => []

/-- The writing calls that had the lock, among calls that have returned. -/
def granted (returned : List (Demand × Filled)) : List Demand :=
  (returned.filter fun call => call.1.writes && !call.2.isRefused).map (·.1)

theorem granted_append (returned : List (Demand × Filled)) (d : Demand) (result : Filled) :
    granted (returned ++ [(d, result)]) =
      granted returned ++ if d.writes && !result.isRefused then [d] else [] := by
  simp only [granted, List.filter_append, List.map_append, List.filter_cons, List.filter_nil]
  split <;> rfl

def entered (t : CallThread) : List Demand := granted t.returned ++ t.holds.toList

end CallThread

/-- A call on the way to its verdict. -/
def CallPhase.Steady : CallPhase → Prop
  | .idle | .reach _ => True
  | .move d rest => rest.writes = d.writes ∧ rest.Proper ∧ d.verdict = .ok ()
  | .letGo d result => d.writes → result.result = d.verdict

namespace CallThread

structure Steady (t : CallThread) : Prop where
  phase : t.phase.Steady
  returned : ∀ call ∈ t.returned, call.1.writes → call.2.isRefused = false →
    call.2.result = call.1.verdict

/-- A call that had the lock returned without an error unless it was refused for its lengths. -/
theorem Steady.granted_filter {t : CallThread} (steady : t.Steady) :
    (granted t.returned).filter (·.verdict.isOk) =
      (t.returned.filter fun call => call.1.writes && call.2.result.isOk).map (·.1) := by
  rw [granted, List.filter_map, List.filter_filter]
  refine congrArg (List.map _) (List.filter_congr fun call hc => ?_)
  cases hw : call.1.writes with
  | false => simp
  | true =>
    cases hr : call.2.isRefused with
    | true => simp [Filled.isOk_of_isRefused hr]
    | false => simp [steady.returned call hc hw hr]

end CallThread

namespace ConnectionThreads

/-- The call for which the next step of a thread gets the lock of the write side. -/
def grants (s : ConnectionThreads) (t : CallThread) : Option Demand :=
  match t.phase with
  | .reach d => if d.writes && s.writer.isNone then some d else none
  | _ => none

/-- What the step of a thread does to the lock of the write side and to the stream. -/
inductive WriteStep (s : ConnectionThreads) (i : Nat) (t now : CallThread) : ConnectionThreads → Prop
  | aside {u : ConnectionThreads} (grants : s.grants t = none)
      (outgoing : u.connection.outgoing = s.connection.outgoing) (writer : u.writer = s.writer)
      (before : t.holds = none) (after : now.holds = none) : WriteStep s i t now u
  | acquires {u : ConnectionThreads} {d : Demand} (grants : s.grants t = some d)
      (outgoing : u.connection.outgoing = s.connection.outgoing) (free : s.writer = none)
      (writer : u.writer = some i) (before : t.holds = none) (after : now.holds = some d)
      (left : now.left = d.message) : WriteStep s i t now u
  | writes {u : ConnectionThreads} {d : Demand} {wrote : Bytes} (grants : s.grants t = none)
      (willing : u.connection.outgoing.Willing)
      (outgoing : u.connection.outgoing.written = s.connection.outgoing.written ++ wrote)
      (writer : u.writer = s.writer) (before : t.holds = some d) (after : now.holds = some d)
      (left : t.left = wrote ++ now.left) : WriteStep s i t now u
  | releases {u : ConnectionThreads} {d : Demand} (grants : s.grants t = none)
      (outgoing : u.connection.outgoing = s.connection.outgoing) (writer : u.writer = none)
      (before : t.holds = some d) (after : now.holds = none) (left : t.left = []) :
      WriteStep s i t now u

/-- A thread goes on with its calls, and its calls with the lock are noted. -/
structure Goes (s : ConnectionThreads) (i : Nat) (t now : CallThread) (u : ConnectionThreads) :
    Prop where
  threads : u.threads = s.threads.set i now
  steady : now.Steady
  calls : now.calls = t.calls
  written : u.written = s.written ++ (s.grants t).toList
  entered : now.entered = t.entered ++ (s.grants t).toList
  step : s.WriteStep i t now u

theorem setHolder_of_writes {d : Demand} (hw : d.writes = true) (s : ConnectionThreads)
    (holder : Option Nat) : s.setHolder d holder = { s with writer := holder } := if_pos hw

theorem setHolder_of_reads {d : Demand} (hw : d.writes = false) (s : ConnectionThreads)
    (holder : Option Nat) : s.setHolder d holder = { s with reader := holder } := by
  rw [setHolder, hw]
  rfl

variable {s : ConnectionThreads} {i : Nat} {todo : List Demand} {returned : List (Demand × Filled)}
  {d : Demand}

theorem Goes.rest {t : CallThread} (ht : s.threads[i]? = some t) (steady : t.Steady)
    (grants : s.grants t = none) (before : t.holds = none) : s.Goes i t t s := by
  obtain ⟨hi, rfl⟩ := List.getElem?_eq_some_iff.mp ht
  refine ⟨(List.set_getElem_self hi).symm, steady, rfl, ?_, ?_, .aside grants rfl rfl before before⟩
  · simp [grants]
  · simp [grants]

theorem stepThread_idle (steady : (CallThread.mk (d :: todo) .idle returned).Steady) :
    ∃ now, s.Goes i ⟨d :: todo, .idle, returned⟩ now
      (s.stepThread i ⟨d :: todo, .idle, returned⟩) := by
  simp only [stepThread]
  cases ho : s.connection.ensureOpen with
  | ok =>
    refine ⟨⟨todo, .reach d, returned⟩, rfl, ⟨trivial, steady.returned⟩, ?_,
      (List.append_nil _).symm, (List.append_nil _).symm, .aside rfl rfl rfl rfl rfl⟩
    simp [CallThread.calls, CallThread.current]
  | error e =>
    have closed : (⟨[], .error e⟩ : Filled).isRefused = true := by
      unfold Connection.ensureOpen at ho
      split at ho
      · cases ho
      · obtain rfl := Except.error.inj ho
        rfl
    refine ⟨⟨todo, .idle, returned ++ [(d, ⟨[], .error e⟩)]⟩, rfl, ⟨trivial, ?_⟩, ?_,
      (List.append_nil _).symm, ?_, .aside rfl rfl rfl rfl rfl⟩
    · refine List.forall_mem_append.mpr ⟨steady.returned, List.forall_mem_singleton.mpr ?_⟩
      intro _ entered
      exact absurd closed (by rw [entered]; decide)
    · simp [CallThread.calls, CallThread.current]
    · simp [CallThread.entered, CallThread.holds, CallThread.granted_append, closed, grants]

def afterLock (todo : List Demand) (d : Demand) (returned : List (Demand × Filled)) : CallThread where
  todo
  phase := match d.start with
    | .ok rest => .move d rest
    | .error e => .letGo d ⟨[], .error e⟩
  returned

theorem afterLock_steady (steady : (CallThread.mk todo (.reach d) returned).Steady) :
    (afterLock todo d returned).Steady ∧ (afterLock todo d returned).current = some d ∧
      (afterLock todo d returned).holds = (if d.writes then some d else none) ∧
      (afterLock todo d returned).left = d.message := by
  unfold afterLock
  cases hs : d.start with
  | ok rest =>
    obtain ⟨direction, proper, left⟩ := Demand.start_ok hs
    have verdict : d.verdict = .ok () := by
      rw [Demand.verdict, hs]
      rfl
    exact ⟨⟨⟨direction, proper, verdict⟩, steady.returned⟩, rfl, rfl, left⟩
  | error e =>
    have verdict : d.verdict = .error e := by
      rw [Demand.verdict, hs]
      rfl
    exact ⟨⟨fun _ => verdict.symm, steady.returned⟩, rfl, rfl, (Demand.start_error hs).1.symm⟩

theorem stepThread_reach (ht : s.threads[i]? = some ⟨todo, .reach d, returned⟩)
    (steady : (CallThread.mk todo (.reach d) returned).Steady) :
    ∃ now, s.Goes i ⟨todo, .reach d, returned⟩ now (s.stepThread i ⟨todo, .reach d, returned⟩) := by
  have step : s.stepThread i ⟨todo, .reach d, returned⟩ =
      if (s.holder d).isSome then s else (s.lock i d).setThread i (afterLock todo d returned) := rfl
  rw [step]
  obtain ⟨still, current, holds, left⟩ := afterLock_steady steady
  have calls : (afterLock todo d returned).calls = CallThread.calls ⟨todo, .reach d, returned⟩ := by
    simp only [CallThread.calls, current]
    rfl
  cases hw : d.writes with
  | true =>
    rw [hw, if_pos rfl] at holds
    have side : s.holder d = s.writer := if_pos hw
    rw [side]
    cases hl : s.writer with
    | some j => exact ⟨_, .rest ht steady (by simp [grants, hl]) rfl⟩
    | none =>
      have grants : s.grants ⟨todo, .reach d, returned⟩ = some d := by simp [grants, hw, hl]
      rw [lock, setHolder_of_writes hw, hw, if_pos rfl, if_neg (by simp)]
      refine ⟨_, rfl, still, calls, ?_, ?_, .acquires grants rfl hl rfl rfl holds left⟩
      · rw [grants]
        rfl
      · rw [grants, CallThread.entered, holds]
        exact congrArg (· ++ [d]) (List.append_nil _).symm
  | false =>
    rw [hw, if_neg Bool.false_ne_true] at holds
    have grants : s.grants ⟨todo, .reach d, returned⟩ = none := by simp [grants, hw]
    by_cases held : (s.holder d).isSome
    · rw [if_pos held]
      exact ⟨_, .rest ht steady grants rfl⟩
    · rw [if_neg held, lock, setHolder_of_reads hw, hw, if_neg Bool.false_ne_true]
      refine ⟨_, rfl, still, calls, ?_, ?_, .aside grants rfl rfl rfl holds⟩
      · rw [grants]
        exact (List.append_nil _).symm
      · rw [grants, CallThread.entered, holds]
        exact (List.append_nil _).symm

theorem stepThread_move {rest : Transfer}
    (steady : (CallThread.mk todo (.move d rest) returned).Steady)
    (willing : s.connection.outgoing.Willing) :
    ∃ now, s.Goes i ⟨todo, .move d rest, returned⟩ now
      (s.stepThread i ⟨todo, .move d rest, returned⟩) := by
  obtain ⟨direction, proper, verdict⟩ := steady.phase
  have entered : ∀ phase, CallThread.holds ⟨todo, phase, returned⟩ =
      CallThread.holds ⟨todo, .move d rest, returned⟩ →
      CallThread.entered ⟨todo, phase, returned⟩ =
        CallThread.entered ⟨todo, .move d rest, returned⟩ ++ [] := by
    intro phase same
    rw [CallThread.entered, same, List.append_nil]
    rfl
  simp only [stepThread]
  cases hw : d.writes with
  | false =>
    have apart : CallThread.holds ⟨todo, .move d rest, returned⟩ = none := by
      simp only [CallThread.holds, hw, Bool.false_eq_true, if_false]
    obtain ⟨same, reads⟩ := Transfer.step_of_reads (c := s.connection) (direction.trans hw)
    generalize rest.step s.connection = out at same reads
    obtain ⟨next | result, connection⟩ := out
    · have goesOn := reads next rfl
      have phase : (CallPhase.move d next).Steady := ⟨goesOn.trans hw.symm, .of_reads goesOn, verdict⟩
      exact ⟨⟨todo, .move d next, returned⟩, rfl, ⟨phase, steady.returned⟩, rfl,
        (List.append_nil _).symm, entered _ rfl, .aside rfl same rfl apart apart⟩
    · have phase : (CallPhase.letGo d result).Steady :=
        fun writes => absurd (writes.symm.trans hw) (by decide)
      exact ⟨⟨todo, .letGo d result, returned⟩, rfl, ⟨phase, steady.returned⟩, rfl,
        (List.append_nil _).symm, entered _ rfl, .aside rfl same rfl apart apart⟩
  | true =>
    have holds : CallThread.holds ⟨todo, .move d rest, returned⟩ = some d := if_pos hw
    obtain ⟨still, wrote, written, ⟨next, hn, writes, proper, left⟩ | ⟨hn, rfl, left⟩⟩ :=
      Transfer.writes_of_willing willing (direction.trans hw) proper
    · rw [hn]
      have phase : (CallPhase.move d next).Steady := ⟨writes.trans hw.symm, proper, verdict⟩
      exact ⟨⟨todo, .move d next, returned⟩, rfl, ⟨phase, steady.returned⟩, rfl,
        (List.append_nil _).symm, entered _ rfl, .writes rfl still written rfl holds holds left⟩
    · rw [hn]
      have phase : (CallPhase.letGo d ⟨[], .ok ()⟩).Steady := fun _ => verdict.symm
      exact ⟨⟨todo, .letGo d ⟨[], .ok ()⟩, returned⟩, rfl, ⟨phase, steady.returned⟩, rfl,
        (List.append_nil _).symm, entered _ rfl, .writes rfl still written rfl holds holds left⟩

theorem stepThread_letGo {result : Filled}
    (steady : (CallThread.mk todo (.letGo d result) returned).Steady) :
    ∃ now, s.Goes i ⟨todo, .letGo d result, returned⟩ now
      (s.stepThread i ⟨todo, .letGo d result, returned⟩) := by
  have ends : d.writes → result.result = d.verdict := steady.phase
  have finished : ∀ call ∈ returned ++ [(d, result)], call.1.writes → call.2.isRefused = false →
      call.2.result = call.1.verdict := by
    refine List.forall_mem_append.mpr ⟨steady.returned, List.forall_mem_singleton.mpr ?_⟩
    exact fun writes _ => ends writes
  have calls : CallThread.calls ⟨todo, .idle, returned ++ [(d, result)]⟩ =
      CallThread.calls ⟨todo, .letGo d result, returned⟩ := by
    simp [CallThread.calls, CallThread.current]
  have goes : s.stepThread i ⟨todo, .letGo d result, returned⟩ =
      (s.setHolder d none).setThread i ⟨todo, .idle, returned ++ [(d, result)]⟩ := rfl
  rw [goes]
  cases hw : d.writes with
  | false =>
    have apart : CallThread.holds ⟨todo, .letGo d result, returned⟩ = none := by
      simp only [CallThread.holds, hw, Bool.false_eq_true, if_false]
    rw [setHolder_of_reads hw]
    refine ⟨_, rfl, ⟨trivial, finished⟩, calls, (List.append_nil _).symm, ?_,
      .aside rfl rfl rfl apart rfl⟩
    simp [CallThread.entered, CallThread.granted_append, CallThread.holds, hw, grants]
  | true =>
    have holds : CallThread.holds ⟨todo, .letGo d result, returned⟩ = some d := if_pos hw
    have granted : result.isRefused = false := Demand.isRefused_eq_false (ends hw)
    rw [setHolder_of_writes hw]
    refine ⟨_, rfl, ⟨trivial, finished⟩, calls, (List.append_nil _).symm, ?_,
      .releases rfl rfl rfl holds rfl rfl⟩
    simp [CallThread.entered, CallThread.granted_append, CallThread.holds, hw, granted, grants]

/-- Every step of a thread on a willing stream is one of these. -/
theorem stepThread_goes {t : CallThread} (ht : s.threads[i]? = some t) (steady : t.Steady)
    (willing : s.connection.outgoing.Willing) : ∃ now, s.Goes i t now (s.stepThread i t) := by
  obtain ⟨todo, phase, returned⟩ := t
  cases phase with
  | idle =>
    cases todo with
    | nil => exact ⟨_, .rest ht steady rfl rfl⟩
    | cons d todo => exact stepThread_idle steady
  | reach d => exact stepThread_reach ht steady
  | move d rest => exact stepThread_move steady willing
  | letGo d result => exact stepThread_letGo steady

end ConnectionThreads

end ModuleLink
