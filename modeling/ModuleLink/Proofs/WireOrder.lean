import ModuleLink.Proofs.EnvelopeRoundTrip
import ModuleLink.Proofs.WriteSteps

/-! # Messages of several threads on one stream

Whoever has the lock of the write side keeps it until the whole message is written. So the stream
holds whole messages in the order in which their calls got the lock, and a beginning of the message
of the thread that has it now. -/
namespace ModuleLink

namespace ConnectionThreads

def start (c : Connection) (plans : List (List Demand)) : ConnectionThreads where
  connection := c
  threads := plans.map fun todo => { todo }

/-- The thread that gets the lock of the write side, and what it asks for. -/
def acquired (s : ConnectionThreads) : ConnectionEvent → Option (Nat × Demand)
  | .thread i => (s.threads[i]?.bind s.grants).map (i, ·)
  | .invalidate => none

/-- Who got the lock of the write side in a run, and for what, in that order. -/
def acquisitions (s : ConnectionThreads) : List ConnectionEvent → List (Nat × Demand)
  | [] => []
  | event :: events => (s.acquired event).toList ++ (s.step event).acquisitions events

def askedBy (i : Nat) (log : List (Nat × Demand)) : List Demand := (log.filter (·.1 = i)).map (·.2)

def wireOf (log : List (Nat × Demand)) : Bytes := log.flatMap (·.2.message)

theorem askedBy_append (i : Nat) (log : List (Nat × Demand)) (j : Nat) (d : Demand) :
    askedBy i (log ++ [(j, d)]) = askedBy i log ++ if j = i then [d] else [] := by
  simp only [askedBy, List.filter_append, List.map_append, List.filter_cons, List.filter_nil,
    decide_eq_true_eq]
  split <;> rfl

theorem wireOf_append (log : List (Nat × Demand)) (i : Nat) (d : Demand) :
    wireOf (log ++ [(i, d)]) = wireOf log ++ d.message := by
  simp [wireOf]

/-- A thread as it stands to the log and to the lock. -/
structure Accounted (log : List (Nat × Demand)) (writer : Option Nat) (i : Nat) (t : CallThread) :
    Prop where
  steady : t.Steady
  asked : askedBy i log = t.entered
  lock : t.holds.isSome ↔ writer = some i

/-- What is on the stream: whole messages, and what the thread with the lock has written of its own. -/
structure OnWire (base : Bytes) (log : List (Nat × Demand)) (s : ConnectionThreads) : Prop where
  free : s.writer = none → s.connection.outgoing.written = base ++ wireOf log
  held : ∀ i, s.writer = some i → ∃ t d before begun, s.threads[i]? = some t ∧ t.holds = some d ∧
    log = before ++ [(i, d)] ∧ begun ++ t.left = d.message ∧
    s.connection.outgoing.written = base ++ (wireOf before ++ begun)

/-- A run in which no message is interrupted by another one. -/
structure Orderly (base : Bytes) (plans : List (List Demand)) (log : List (Nat × Demand))
    (s : ConnectionThreads) : Prop where
  willing : s.connection.outgoing.Willing
  written : log.map (·.2) = s.written
  calls : s.threads.map CallThread.calls = plans
  planned : ∀ a ∈ log, ∃ plan, plans[a.1]? = some plan ∧ a.2 ∈ plan
  threads : ∀ i t, s.threads[i]? = some t → Accounted log s.writer i t
  onWire : OnWire base log s

variable {c : Connection} {base : Bytes} {plans : List (List Demand)} {log : List (Nat × Demand)}
  {s u : ConnectionThreads} {i : Nat} {t now : CallThread}

theorem orderly_start (willing : c.outgoing.Willing) (plans : List (List Demand)) :
    Orderly c.outgoing.written plans [] (start c plans) := by
  have calls : (start c plans).threads.map CallThread.calls = plans := by
    simp [start, Function.comp_def, CallThread.calls, CallThread.current]
  have onWire : OnWire c.outgoing.written [] (start c plans) :=
    ⟨fun _ => (List.append_nil _).symm, fun i taken => absurd taken (Option.some_ne_none i).symm⟩
  refine ⟨willing, rfl, calls, fun a ha => absurd ha List.not_mem_nil, fun i t ht => ?_, onWire⟩
  rw [start, List.getElem?_map] at ht
  obtain ⟨plan, hp, rfl⟩ := Option.map_eq_some_iff.mp ht
  exact ⟨⟨trivial, fun _ h => absurd h List.not_mem_nil⟩, rfl, by simp [CallThread.holds, start]⟩

/-- A step of a thread takes or gives back the lock for that thread alone. -/
theorem WriteStep.lock (step : s.WriteStep i t now u) (lock : t.holds.isSome ↔ s.writer = some i) :
    (now.holds.isSome ↔ u.writer = some i) ∧
      ∀ j, j ≠ i → (u.writer = some j ↔ s.writer = some j) := by
  cases step with
  | aside _ _ writer before after =>
    exact ⟨by rw [after, writer, ← lock, before], fun j _ => by rw [writer]⟩
  | acquires _ _ free writer _ after =>
    refine ⟨by simp [after, writer], fun j other => ?_⟩
    simp [writer, free, Ne.symm other]
  | writes _ _ _ writer before after =>
    exact ⟨by rw [after, writer, ← lock, before], fun j _ => by rw [writer]⟩
  | releases _ _ writer before after =>
    have mine : s.writer = some i := lock.mp (by rw [before]; rfl)
    refine ⟨by simp [after, writer], fun j other => ?_⟩
    simp [writer, mine, Ne.symm other]

theorem Goes.accounted (goes : s.Goes i t now u) (account : Accounted log s.writer i t) :
    Accounted (log ++ (s.grants t).toList.map (i, ·)) u.writer i now := by
  refine ⟨goes.steady, ?_, (goes.step.lock account.lock).1⟩
  rw [goes.entered, ← account.asked]
  cases s.grants t with
  | none => simp
  | some d => rw [Option.toList_some, List.map_singleton, askedBy_append, if_pos rfl]

/-- What a thread does is no business of another one. -/
theorem Accounted.of_other {j : Nat} {other : CallThread} (account : Accounted log s.writer j other)
    (ne : j ≠ i) (d : Option Demand) (lock : u.writer = some j ↔ s.writer = some j) :
    Accounted (log ++ d.toList.map (i, ·)) u.writer j other := by
  refine ⟨account.steady, ?_, account.lock.trans lock.symm⟩
  rw [← account.asked]
  cases d with
  | none => simp
  | some d =>
    rw [Option.toList_some, List.map_singleton, askedBy_append, if_neg ne.symm, List.append_nil]

/-- A thread that gets the lock starts its message behind whole messages, goes on with it as long as it
has the lock, and has written all of it when it gives the lock back. -/
theorem OnWire.go (onWire : OnWire base log s) (ht : s.threads[i]? = some t)
    (lock : t.holds.isSome ↔ s.writer = some i) (goes : s.Goes i t now u) :
    OnWire base (log ++ (s.grants t).toList.map (i, ·)) u := by
  obtain ⟨hi, -⟩ := List.getElem?_eq_some_iff.mp ht
  have there : u.threads[i]? = some now := by
    rw [goes.threads]
    exact List.getElem?_set_self hi
  have mine : ∀ {d}, t.holds = some d → s.writer = some i := fun h => lock.mp (by rw [h]; rfl)
  cases goes.step with
  | aside grants outgoing writer before after =>
    rw [grants, Option.toList_none, List.map_nil, List.append_nil]
    refine ⟨fun free => ?_, fun j hj => ?_⟩
    · rw [outgoing]
      exact onWire.free (writer ▸ free)
    · rw [writer] at hj
      have ne : i ≠ j := by
        rintro rfl
        have holds := lock.mpr hj
        rw [before] at holds
        cases holds
      obtain ⟨other, d, past, begun, ho, rest⟩ := onWire.held j hj
      refine ⟨other, d, past, begun, ?_, outgoing ▸ rest⟩
      rw [goes.threads, List.getElem?_set_ne ne, ho]
  | @acquires d grants outgoing free writer before after left =>
    rw [grants]
    refine ⟨fun free => absurd (free.symm.trans writer) nofun, fun j hj => ?_⟩
    obtain rfl := Option.some.inj (writer.symm.trans hj)
    refine ⟨now, d, log, [], there, after, rfl, left, ?_⟩
    rw [outgoing, onWire.free free, List.append_nil]
  | @writes d wrote grants _ outgoing writer before after left =>
    rw [grants, Option.toList_none, List.map_nil, List.append_nil]
    have taken : u.writer = some i := writer.trans (mine before)
    refine ⟨fun free => absurd (taken.symm.trans free) nofun, fun j hj => ?_⟩
    obtain rfl := Option.some.inj (taken.symm.trans hj)
    obtain ⟨same, d', past, begun, ho, holds, rfl, whole, written⟩ := onWire.held i (mine before)
    obtain rfl := Option.some.inj (ht.symm.trans ho)
    obtain rfl := Option.some.inj (before.symm.trans holds)
    refine ⟨now, d, past, begun ++ wrote, there, after, rfl, ?_, ?_⟩
    · rw [List.append_assoc, ← left, whole]
    · rw [outgoing, written]
      simp only [List.append_assoc]
  | @releases d grants outgoing writer before after left =>
    rw [grants, Option.toList_none, List.map_nil, List.append_nil]
    refine ⟨fun _ => ?_, fun j hj => absurd (hj.symm.trans writer) nofun⟩
    obtain ⟨same, d', past, begun, ho, holds, rfl, whole, written⟩ := onWire.held i (mine before)
    obtain rfl := Option.some.inj (ht.symm.trans ho)
    obtain rfl := Option.some.inj (before.symm.trans holds)
    rw [left, List.append_nil] at whole
    rw [outgoing, written, wireOf_append, whole]

theorem mem_calls_of_grants {d : Demand} (h : s.grants t = some d) : d ∈ t.calls := by
  unfold grants at h
  split at h
  · rename_i asks hp
    split at h
    · obtain rfl := Option.some.inj h
      simp [CallThread.calls, CallThread.current, hp]
    · cases h
  · cases h

theorem Orderly.go (orderly : Orderly base plans log s) (ht : s.threads[i]? = some t)
    (goes : s.Goes i t now u) :
    Orderly base plans (log ++ (s.grants t).toList.map (i, ·)) u := by
  have account := orderly.threads i t ht
  have hp : plans[i]? = some t.calls := by
    rw [← orderly.calls, List.getElem?_map, ht, Option.map_some]
  obtain ⟨hi, -⟩ := List.getElem?_eq_some_iff.mp ht
  refine ⟨?_, ?_, ?_, ?_, ?_, orderly.onWire.go ht account.lock goes⟩
  · cases goes.step with
    | aside _ outgoing => exact outgoing ▸ orderly.willing
    | acquires _ outgoing => exact outgoing ▸ orderly.willing
    | writes _ willing => exact willing
    | releases _ outgoing => exact outgoing ▸ orderly.willing
  · rw [goes.written, ← orderly.written, List.map_append, List.map_map]
    exact congrArg _ (List.map_id _)
  · rw [goes.threads, List.map_set, orderly.calls, goes.calls]
    obtain ⟨hi, there⟩ := List.getElem?_eq_some_iff.mp hp
    exact there ▸ List.set_getElem_self hi
  · intro a ha
    rcases List.mem_append.mp ha with ha | ha
    · exact orderly.planned a ha
    · obtain ⟨d, hd, rfl⟩ := List.mem_map.mp ha
      exact ⟨t.calls, hp, mem_calls_of_grants (Option.mem_toList.mp hd)⟩
  · intro j other hj
    rw [goes.threads] at hj
    by_cases ne : j = i
    · subst ne
      obtain rfl := Option.some.inj ((List.getElem?_set_self hi).symm.trans hj)
      exact goes.accounted account
    · rw [List.getElem?_set_ne (Ne.symm ne)] at hj
      exact (orderly.threads j other hj).of_other ne _ ((goes.step.lock account.lock).2 j ne)

theorem Orderly.step (orderly : Orderly base plans log s) (event : ConnectionEvent) :
    Orderly base plans (log ++ (s.acquired event).toList) (s.step event) := by
  cases event with
  | invalidate =>
    rw [acquired, Option.toList_none, List.append_nil]
    exact ⟨orderly.willing, orderly.written, orderly.calls, orderly.planned, orderly.threads,
      orderly.onWire.free, orderly.onWire.held⟩
  | thread i =>
    simp only [ConnectionThreads.step, acquired]
    cases ht : s.threads[i]? with
    | none => simpa using orderly
    | some t =>
      obtain ⟨now, goes⟩ := stepThread_goes ht (orderly.threads i t ht).steady orderly.willing
      have log : ((some t).bind s.grants |>.map (i, ·)).toList = (s.grants t).toList.map (i, ·) := by
        cases hg : s.grants t <;> simp [hg]
      rw [log]
      exact orderly.go ht goes

theorem Orderly.run (orderly : Orderly base plans log s) (events : List ConnectionEvent) :
    Orderly base plans (log ++ s.acquisitions events) (s.run events) := by
  induction events generalizing log s with
  | nil =>
    rw [acquisitions, List.append_nil]
    exact orderly
  | cons event events ih =>
    rw [acquisitions, ← List.append_assoc]
    exact ih (orderly.step event)

/-- What the threads have written: whole messages in the order in which their calls got the lock, and
a beginning of the one message whose call still has it. -/
structure InTurn (c : Connection) (log : List (Nat × Demand)) (s : ConnectionThreads)
    (complete : List (Nat × Demand)) (current : Option (Nat × Demand)) (begun : Bytes) : Prop where
  log : log = complete ++ current.toList
  holder : s.writer = current.map (·.1)
  wire : s.connection.outgoing.written = c.outgoing.written ++ (wireOf complete ++ begun)
  begins : begun <+: current.elim [] (·.2.message)
  /-- The calls of a thread that returned without an error are the whole messages of that thread. -/
  returned : ∀ i t, s.threads[i]? = some t → (askedBy i complete).filter (·.verdict.isOk) =
    (t.returned.filter fun call => call.1.writes && call.2.result.isOk).map (·.1)

theorem Orderly.inTurn (orderly : Orderly c.outgoing.written plans log s) :
    ∃ complete current begun, InTurn c log s complete current begun := by
  have returned : ∀ complete, (∀ i t, s.threads[i]? = some t →
      askedBy i complete = CallThread.granted t.returned) → ∀ i t, s.threads[i]? = some t →
      (askedBy i complete).filter (·.verdict.isOk) =
        (t.returned.filter fun call => call.1.writes && call.2.result.isOk).map (·.1) := by
    intro complete asked i t ht
    rw [asked i t ht, (orderly.threads i t ht).steady.granted_filter]
  have apart : ∀ i t, s.threads[i]? = some t → s.writer ≠ some i →
      askedBy i log = CallThread.granted t.returned := by
    intro i t ht other
    have account := orderly.threads i t ht
    have none : t.holds = none := by simpa [other] using account.lock
    rw [account.asked, CallThread.entered, none, Option.toList_none, List.append_nil]
  cases hl : s.writer with
  | none =>
    refine ⟨log, none, [], (List.append_nil _).symm, hl, ?_, List.nil_prefix,
      returned _ fun i t ht => apart i t ht (by simp [hl])⟩
    rw [orderly.onWire.free hl, List.append_nil]
  | some i =>
    obtain ⟨t, d, before, begun, ht, holds, rfl, whole, written⟩ := orderly.onWire.held i hl
    refine ⟨before, some (i, d), begun, rfl, hl, written, ⟨t.left, whole⟩,
      returned _ fun j other hj => ?_⟩
    by_cases ne : i = j
    · subst ne
      obtain rfl := Option.some.inj (ht.symm.trans hj)
      have asked := (orderly.threads i t ht).asked
      rw [askedBy_append, if_pos rfl, CallThread.entered, holds] at asked
      exact List.append_cancel_right asked
    · have asked := apart j other hj (by simpa [hl] using ne)
      rwa [askedBy_append, if_neg ne, List.append_nil] at asked

end ConnectionThreads

theorem Envelope.Sized.message_send {m : Envelope} (h : m.Sized) : (Demand.send m).message = m.wire :=
  if_pos h.length_wire

theorem Envelope.Sized.verdict_send {m : Envelope} (h : m.Sized) :
    (Demand.send m).verdict = .ok () := by
  have sum : capacity (m.segments.map List.length) = m.wireLength :=
    (Sink.capacity_map_length _).trans h.length_wire
  simp only [Demand.verdict, Demand.send, Demand.start, if_pos sum]
  rfl

theorem Envelope.Sized.send_inj {m n : Envelope} (hm : m.Sized) (hn : n.Sized)
    (h : Demand.send m = Demand.send n) : m = n := by
  have wires : m.wire = n.wire := by rw [← hm.message_send, h, hn.message_send]
  exact (hm.wire_append_inj hn (congrArg (· ++ []) wires)).1

theorem eq_of_map_send {ms ns : List Envelope} (hm : ∀ m ∈ ms, m.Sized) (hn : ∀ n ∈ ns, n.Sized)
    (h : ms.map Demand.send = ns.map Demand.send) : ms = ns := by
  induction ms generalizing ns with
  | nil => exact (List.map_eq_nil_iff.mp h.symm).symm
  | cons m ms ih =>
    cases ns with
    | nil => cases h
    | cons n ns =>
      obtain ⟨first, rest⟩ := List.cons.inj h
      rw [(hm m (List.mem_cons_self ..)).send_inj (hn n (List.mem_cons_self ..)) first,
        ih (fun m hm' => hm m (List.mem_cons_of_mem _ hm'))
          (fun n hn' => hn n (List.mem_cons_of_mem _ hn')) rest]

/-- Calls that send envelopes, as the envelopes that they send. -/
theorem exists_sent {P : Envelope → Prop} {log : List (Nat × Demand)}
    (sends : ∀ a ∈ log, ∃ m, P m ∧ a.2 = .send m) :
    ∃ sent : List (Nat × Envelope), (∀ b ∈ sent, P b.2) ∧
      log = sent.map fun b => (b.1, .send b.2) := by
  induction log with
  | nil => exact ⟨[], nofun, rfl⟩
  | cons a log ih =>
    obtain ⟨m, hm, ha⟩ := sends a (List.mem_cons_self ..)
    obtain ⟨sent, hs, rfl⟩ := ih fun b hb => sends b (List.mem_cons_of_mem _ hb)
    refine ⟨(a.1, m) :: sent, List.forall_mem_cons.mpr ⟨hm, hs⟩, ?_⟩
    rw [List.map_cons, ← ha]

/-- The calls of a thread that returned without an error, as envelopes of its plan. -/
theorem returned_send {ms : List Envelope} {returned : List (Demand × Filled)} {rest : List Demand}
    (h : ms.map Demand.send = returned.map (·.1) ++ rest) :
    (returned.filter fun call => call.1.writes && call.2.result.isOk).map (·.1) =
      (((ms.zip returned).filter (·.2.2.result.isOk)).map (·.1)).map Demand.send := by
  induction returned generalizing ms with
  | nil => simp
  | cons call returned ih =>
    cases ms with
    | nil => cases h
    | cons m ms =>
      obtain ⟨first, later⟩ := List.cons.inj h
      have writes : call.1.writes = true := (congrArg Demand.writes first).symm
      simp only [List.zip_cons_cons, List.filter_cons, writes, Bool.true_and]
      split
      · rw [List.map_cons, List.map_cons, List.map_cons, ih later, first]
      · exact ih later

namespace ConnectionThreads

/-- What was sent is received, in the order in which it was sent. -/
theorem InTurn.receiveEach {c : Connection} {log complete : List (Nat × Demand)}
    {s : ConnectionThreads} {current : Option (Nat × Demand)} {begun : Bytes}
    (inTurn : InTurn c log s complete current begun) {limits : Limits} {r : Source}
    (sends : ∀ a ∈ complete, ∃ m : Envelope, (m.Sound ∧ m.header.Fits limits) ∧ a.2 = .send m)
    (goesOn : ∀ turn ∈ r.turns, turn.goesOn)
    (hr : c.outgoing.written ++ r.unread = s.connection.outgoing.written) :
    ∃ sent : List (Nat × Envelope), (∀ b ∈ sent, b.2.Sound) ∧
      complete = sent.map (fun b => (b.1, .send b.2)) ∧
      (receiveEach limits sent.length r).1 = sent.map (.ok ·.2) ∧
      (receiveEach limits sent.length r).2.unread = begun := by
  obtain ⟨sent, valid, rfl⟩ := exists_sent sends
  have framed : ∀ m ∈ sent.map (·.2), m.Sized ∧ m.header.Fits limits := by
    intro m hm
    obtain ⟨b, hb, rfl⟩ := List.mem_map.mp hm
    exact ⟨(valid b hb).1.toSized, (valid b hb).2⟩
  have wires : wireOf (sent.map fun b => (b.1, .send b.2)) =
      (sent.map (·.2)).flatMap Envelope.wire := by
    simp only [wireOf, List.flatMap_def, List.map_map]
    exact congrArg _ (List.map_congr_left fun b hb => (valid b hb).1.message_send)
  have unread := List.append_cancel_left (hr.trans inTurn.wire)
  rw [wires] at unread
  obtain ⟨received, left⟩ := receiveEach_frames goesOn framed unread
  rw [List.length_map] at received left
  refine ⟨sent, fun b hb => (valid b hb).1, rfl, ?_, left⟩
  rw [received, List.map_map]
  exact List.map_congr_left fun b hb => (valid b hb).1.verdict

/-- The envelopes of a thread that are on the stream are those of its calls that returned without an
error. -/
theorem InTurn.sentBy {c : Connection} {log : List (Nat × Demand)} {s : ConnectionThreads}
    {current : Option (Nat × Demand)} {begun : Bytes} {sent : List (Nat × Envelope)}
    (inTurn : InTurn c log s (sent.map fun b => (b.1, .send b.2)) current begun)
    (sized : ∀ b ∈ sent, b.2.Sized) {i : Nat} {t : CallThread} (ht : s.threads[i]? = some t)
    {ms : List Envelope} (hms : ∀ m ∈ ms, m.Sized) (calls : t.calls = ms.map Demand.send) :
    (sent.filter (·.1 = i)).map (·.2) =
      ((ms.zip t.returned).filter (·.2.2.result.isOk)).map (·.1) := by
  have asked : askedBy i (sent.map fun b => (b.1, .send b.2)) =
      ((sent.filter (·.1 = i)).map (·.2)).map Demand.send := by
    simp only [askedBy, List.filter_map, List.map_map]
    rfl
  have whole : (askedBy i (sent.map fun b => (b.1, .send b.2))).filter (·.verdict.isOk) =
      askedBy i (sent.map fun b => (b.1, .send b.2)) := by
    refine List.filter_eq_self.mpr fun d hd => ?_
    rw [asked, List.map_map] at hd
    obtain ⟨b, hb, rfl⟩ := List.mem_map.mp hd
    rw [Function.comp_apply, (sized b (List.mem_filter.mp hb).1).verdict_send]
    rfl
  have planned : ms.map Demand.send = t.returned.map (·.1) ++ (t.current.toList ++ t.todo) := by
    rw [← calls, CallThread.calls, List.append_assoc]
  have returned := inTurn.returned i t ht
  rw [whole, asked, returned_send planned] at returned
  refine eq_of_map_send (fun m hm => ?_) (fun m hm => ?_) returned
  · obtain ⟨b, hb, rfl⟩ := List.mem_map.mp hm
    exact sized b (List.mem_filter.mp hb).1
  · obtain ⟨a, ha, rfl⟩ := List.mem_map.mp hm
    exact hms _ (List.of_mem_zip (List.mem_filter.mp ha).1).1

/-- However the steps of threads are mixed, and however the stream cuts up and puts off its writes, the
stream holds whole messages in the order in which their calls got the lock, and a beginning of one
more. The whole messages of a thread are those of its calls that returned without an error, in its
order. So who receives what was sent gets the envelopes of every thread in the order of that thread. -/
theorem not_interleaved {c : Connection} (willing : c.outgoing.Willing) (plans : List (List Demand))
    (events : List ConnectionEvent) :
    let s := (start c plans).run events
    let log := (start c plans).acquisitions events
    log.map (·.2) = s.written ∧ s.threads.map CallThread.calls = plans ∧
      ∃ complete current begun, InTurn c log s complete current begun ∧
        ∀ (envelopes : List (List Envelope)) (limits : Limits) (r : Source),
          plans = envelopes.map (List.map Demand.send) →
          (∀ ms ∈ envelopes, ∀ m ∈ ms, m.Made ∧ m.classData.length ≤ limits.classData ∧
            m.payload.length ≤ limits.payload) →
          (∀ turn ∈ r.turns, turn.goesOn) →
          c.outgoing.written ++ r.unread = s.connection.outgoing.written →
          ∃ sent : List (Nat × Envelope), complete = sent.map (fun b => (b.1, .send b.2)) ∧
            (receiveEach limits sent.length r).1 = sent.map (.ok ·.2) ∧
            (receiveEach limits sent.length r).2.unread = begun ∧
            ∀ i t ms, s.threads[i]? = some t → envelopes[i]? = some ms →
              (sent.filter (·.1 = i)).map (·.2) =
                ((ms.zip t.returned).filter (·.2.2.result.isOk)).map (·.1) := by
  intro s log
  have orderly := (orderly_start willing plans).run events
  rw [List.nil_append] at orderly
  obtain ⟨complete, current, begun, inTurn⟩ := orderly.inTurn
  refine ⟨orderly.written, orderly.calls, complete, current, begun, inTurn, ?_⟩
  rintro envelopes limits r rfl made goesOn hr
  have sends : ∀ a ∈ complete, ∃ m : Envelope, (m.Sound ∧ m.header.Fits limits) ∧ a.2 = .send m := by
    intro a ha
    obtain ⟨plan, hp, asked⟩ := orderly.planned a (inTurn.log ▸ List.mem_append_left _ ha)
    obtain ⟨ms, hms, rfl⟩ := List.mem_map.mp (List.mem_of_getElem? hp)
    obtain ⟨m, hm, sends⟩ := List.mem_map.mp asked
    obtain ⟨made, within⟩ := made ms hms m hm
    refine ⟨m, ⟨made.sound, ?_⟩, sends.symm⟩
    rw [Header.Fits, made.sound.classTotal, made.sound.messageTotal]
    exact within
  obtain ⟨sent, sound, rfl, received, left⟩ := inTurn.receiveEach sends goesOn hr
  refine ⟨sent, rfl, received, left, fun i t ms ht hms => ?_⟩
  have calls : t.calls = ms.map Demand.send := by
    have here : (s.threads.map CallThread.calls)[i]? = _ := congrArg (·[i]?) orderly.calls
    simpa only [List.getElem?_map, ht, hms, Option.map_some, Option.some.injEq] using here
  exact inTurn.sentBy (fun b hb => (sound b hb).toSized) ht
    (fun m hm => (made ms (List.mem_of_getElem? hms) m hm).1.sound.toSized) calls

def correspondence : List (List Envelope) :=
  [[letteredEnvelope, letteredEnvelope.withIntent 9], [letteredEnvelope.withIntent 7]]

/-- The second thread asks for the lock while the first one writes, and gets it before the first one
has it again. -/
def mixedSteps : List ConnectionEvent :=
  [0, 1, 0, 1, 0, 1, 0, 0, 1, 0, 0, 0, 0, 0, 1, 0, 1, 1, 1, 1, 0, 1, 1, 0, 0, 0].map .thread

def slowConnection : Connection where
  name := "connection"
  kind := .pipe
  peer := "peer"
  outgoing := slowSink

def beforeMixedSteps : ConnectionThreads :=
  start slowConnection (correspondence.map (List.map Demand.send))

def afterMixedSteps : ConnectionThreads := beforeMixedSteps.run mixedSteps

theorem not_interleaved_mixedSteps :
    slowSink.Willing ∧
      beforeMixedSteps.acquisitions mixedSteps = [(0, .send letteredEnvelope),
        (1, .send (letteredEnvelope.withIntent 7)), (0, .send (letteredEnvelope.withIntent 9))] ∧
      afterMixedSteps.writer = some 0 ∧
      ∃ sent : List (Nat × Envelope),
        (receiveEach ⟨6, 3⟩ sent.length { unread := afterMixedSteps.connection.outgoing.written }).1 =
          sent.map (.ok ·.2) ∧
        (sent.filter (·.1 = 0)).map (·.2) = [letteredEnvelope] ∧
        (sent.filter (·.1 = 1)).map (·.2) = [letteredEnvelope.withIntent 7] := by
  have built := Envelope.lettered_made
  have made : ∀ ms ∈ correspondence, ∀ m ∈ ms, m.Made ∧ m.classData.length ≤ 6 ∧
      m.payload.length ≤ 3 := by
    intro ms hms m hm
    simp only [correspondence, List.mem_cons, List.not_mem_nil, or_false] at hms
    rcases hms with rfl | rfl
    · simp only [List.mem_cons, List.not_mem_nil, or_false] at hm
      rcases hm with rfl | rfl
      · exact ⟨built, by decide⟩
      · exact ⟨built.withIntent 9, by decide⟩
    · obtain rfl := List.mem_singleton.mp hm
      exact ⟨built.withIntent 7, by decide⟩
  obtain ⟨-, -, complete, current, begun, -, receives⟩ := @not_interleaved slowConnection
    slowSink_willing (correspondence.map (List.map Demand.send)) mixedSteps
  obtain ⟨sent, -, received, -, sentBy⟩ := receives correspondence ⟨6, 3⟩
    { unread := afterMixedSteps.connection.outgoing.written } rfl made nofun rfl
  refine ⟨slowSink_willing, by decide +kernel, by decide +kernel, sent, received, ?_, ?_⟩
  · exact (sentBy 0 _ _ rfl rfl).trans (by decide +kernel)
  · exact (sentBy 1 _ _ rfl rfl).trans (by decide +kernel)

end ConnectionThreads

end ModuleLink
