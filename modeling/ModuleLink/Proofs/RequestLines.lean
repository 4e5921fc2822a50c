import ModuleLink.RequestQueues
import ModuleLink.Proofs.ReadLoops

/-! # Which requests a pipe gives back

However the reads cut up what clients wrote, each call takes the first line off what is kept and
what is still in the pipe. Only a buffer that grows past the longest request loses anything, and
it does so although every request in it is short enough. -/
namespace ModuleLink

def IsLine (line : Bytes) : Prop := ∃ body, line = body ++ [newline] ∧ newline ∉ body

structure IsRequest (line : Bytes) : Prop where
  isLine : IsLine line
  length_le : line.length ≤ requestLimit

theorem splitLine?_eq_none_iff {bytes : Bytes} : splitLine? bytes = none ↔ newline ∉ bytes := by
  induction bytes with
  | nil => simp [splitLine?]
  | cons b bs ih =>
    by_cases hb : b = newline
    · simp [splitLine?, hb]
    · simp [splitLine?, hb, ih, Ne.symm hb]

theorem splitLine?_eq_some_iff {bytes line rest : Bytes} :
    splitLine? bytes = some (line, rest) ↔ bytes = line ++ rest ∧ IsLine line := by
  induction bytes generalizing line with
  | nil =>
    simp only [splitLine?, reduceCtorEq, false_iff]
    rintro ⟨h, body, rfl, -⟩
    simp at h
  | cons b bs ih =>
    by_cases hb : b = newline
    · subst hb
      simp only [splitLine?, if_true, Option.some.injEq, Prod.mk.injEq]
      constructor
      · rintro ⟨rfl, rfl⟩
        exact ⟨rfl, [], rfl, nofun⟩
      · rintro ⟨h, body, rfl, clean⟩
        cases body with
        | nil => simpa using h
        | cons c body =>
          obtain ⟨rfl, -⟩ := List.cons.inj h
          exact absurd (List.mem_cons_self ..) clean
    · simp only [splitLine?, hb, if_false, Option.map_eq_some_iff, Prod.exists, Prod.mk.injEq]
      constructor
      · rintro ⟨line, rest', h, rfl, rfl⟩
        obtain ⟨rfl, body, rfl, clean⟩ := ih.mp h
        exact ⟨rfl, b :: body, rfl, by simp [clean, Ne.symm hb]⟩
      · rintro ⟨h, body, rfl, clean⟩
        cases body with
        | nil => exact absurd (List.cons.inj h).1 hb
        | cons c body =>
          obtain ⟨rfl, tail⟩ := List.cons.inj h
          have shorter : IsLine (body ++ [newline]) := ⟨body, rfl, fun hm => clean (by simp [hm])⟩
          exact ⟨body ++ [newline], rest, ih.mpr ⟨tail, shorter⟩, rfl, rfl⟩

/-- A turn that moves bytes, is repeated at once, or finds nothing for now. -/
def Turn.isBenign : Turn → Bool
  | move _ => true
  | fail cause => cause.kind = .interrupted ∨ cause.kind = .wouldBlock

def Turn.isPause : Turn → Bool
  | move most => most = 0
  | fail cause => cause.kind = .wouldBlock

def ReadAnswer.isNothing : ReadAnswer → Bool
  | .bytes got => got = []
  | .failed cause => cause.kind = .wouldBlock

namespace Source

def pauses (s : Source) : Nat := s.turns.countP Turn.isPause

/-- A stream that never fails for good, and never waits when it is empty. -/
structure Patient (s : Source) : Prop where
  benign : ∀ turn ∈ s.turns, turn.isBenign
  ended : s.exhaustion = .ended

variable {s t : Source} {a : ReadAnswer}

theorem Yields.patient {got : Bytes} (h : s.Yields got t) (hs : s.Patient) : t.Patient :=
  ⟨fun turn ht => hs.benign turn (h.turns.subset ht), h.exhaustion.trans hs.ended⟩

theorem Yields.pauses_le {got : Bytes} (h : s.Yields got t) : t.pauses ≤ s.pauses :=
  h.turns.sublist.countP_le

theorem hand_of_ended (he : s.exhaustion = .ended) (most : Nat) :
    s.hand most = (.bytes (s.unread.take most), { s with unread := s.unread.drop most }) := by
  simp [hand, he]

/-- A read of a patient stream finds nothing at a pause or when the stream is empty, and does not
fail for good. -/
theorem Patient.read {c : Call} (hs : s.Patient) (hc : 0 < c.room s.gathers)
    (h : s.read c = (a, t)) :
    (a.isNothing → t.pauses < s.pauses ∨ t.unread = []) ∧
      ∀ cause, a = .failed cause → cause.kind = .interrupted ∨ cause.kind = .wouldBlock := by
  have empty (most : Nat) (hm : most ≠ 0) (nothing : s.unread.take most = []) :
      s.unread.drop most = [] := by
    rw [(List.take_eq_nil_iff.mp nothing).resolve_left hm, List.drop_nil]
  unfold Source.read at h
  dsimp only at h
  split at h
  · rw [hand_of_ended (by exact hs.ended)] at h
    obtain ⟨rfl, rfl⟩ := Prod.mk.inj h.symm
    exact ⟨fun nothing => .inr (empty _ (Nat.ne_of_gt hc) (of_decide_eq_true nothing)), nofun⟩
  · rename_i most turns ht
    rw [hand_of_ended (by exact hs.ended)] at h
    obtain ⟨rfl, rfl⟩ := Prod.mk.inj h.symm
    refine ⟨fun nothing => ?_, nofun⟩
    by_cases hm : most = 0
    · left
      simp [pauses, ht, Turn.isPause, hm]
    · exact .inr (empty _ (by omega) (of_decide_eq_true nothing))
  · rename_i cause turns ht
    obtain ⟨rfl, rfl⟩ := Prod.mk.inj h.symm
    have benign := hs.benign (.fail cause) (by simp [ht])
    refine ⟨fun nothing => .inl ?_, ?_⟩
    · have pause : (Turn.fail cause).isPause = true := nothing
      simp [pauses, ht, pause]
    · rintro _ ⟨⟩
      simpa [Turn.isBenign] using benign

end Source

def fillings (pending : Bytes) (pipe : Source) : List Bytes :=
  if (splitLine? pending).isSome then []
  else
    match _ : pipe.read (.plain requestLimit) with
    | (.bytes [], _) => []
    | (.bytes (b :: bs), pipe) =>
      let longer := pending ++ b :: bs
      longer :: fillings (if requestLimit < longer.length then [] else longer) pipe
    | (.failed cause, pipe) => if _ : cause.kind = .interrupted then fillings pending pipe else []
termination_by pipe.work
decreasing_by
  · exact Source.work_of_bytes ‹_›
  · exact Source.work_of_interrupted ‹_› ‹_›

/-- What a call drops because it is too long for a request. -/
def dropped (pending : Bytes) (pipe : Source) : List Bytes :=
  (fillings pending pipe).filter (requestLimit < ·.length)

theorem fillings_of_none {pending : Bytes} {pipe t : Source} {a : ReadAnswer}
    (hp : splitLine? pending = none) (hr : pipe.read (.plain requestLimit) = (a, t)) :
    fillings pending pipe =
      match a with
      | .bytes [] => []
      | .bytes (b :: bs) =>
        let longer := pending ++ b :: bs
        longer :: fillings (if requestLimit < longer.length then [] else longer) t
      | .failed cause => if cause.kind = .interrupted then fillings pending t else [] := by
  rw [fillings]
  simp only [hp, Option.isSome_none, Bool.false_eq_true, if_false]
  split
  · rename_i hr'
    obtain ⟨rfl, rfl⟩ := Prod.mk.inj (hr.symm.trans hr')
    rfl
  · rename_i hr'
    obtain ⟨rfl, rfl⟩ := Prod.mk.inj (hr.symm.trans hr')
    rfl
  · rename_i hr'
    obtain ⟨rfl, rfl⟩ := Prod.mk.inj (hr.symm.trans hr')
    split <;> simp_all

/-- The line that a call returned, or no bytes. -/
def Dequeued.line (d : Dequeued) : Bytes := (d.result.toOption.join).getD []

/-- What one call does with what is kept and what is in the pipe. -/
structure Dequeues (pending : Bytes) (pipe : Source) (d : Dequeued) : Prop where
  conserved : pending ++ pipe.unread =
    (dropped pending pipe).flatten ++ (d.line ++ (d.pending ++ d.pipe.unread))
  yields : ∃ got, pipe.Yields got d.pipe
  isLine : ∀ line, d.result = .ok (some line) → IsLine line
  nothing : d.result = .ok none → newline ∉ d.pending ∧
    ∃ (s : Source) (a : ReadAnswer), s.read (.plain requestLimit) = (a, d.pipe) ∧ a.isNothing
  patient : pipe.Patient → (∃ r, d.result = .ok r) ∧
    (d.result = .ok none → d.pipe.pauses < pipe.pauses ∨ d.pipe.unread = [])

variable {pending : Bytes} {pipe t : Source} {a : ReadAnswer}

theorem got_of_isNothing (ha : a.isNothing) : a.got = [] := by
  cases a with
  | bytes got => exact of_decide_eq_true ha
  | failed => rfl

theorem dropped_of_isNothing (hp : splitLine? pending = none)
    (hr : pipe.read (.plain requestLimit) = (a, t)) (ha : a.isNothing) :
    dropped pending pipe = [] := by
  rw [dropped, fillings_of_none hp hr]
  cases a with
  | bytes got =>
    obtain rfl : got = [] := of_decide_eq_true ha
    rfl
  | failed cause =>
    have : cause.kind = .wouldBlock := of_decide_eq_true ha
    simp [this]

theorem dropped_of_read {b : UInt8} {bs : Bytes} (hp : splitLine? pending = none)
    (hr : pipe.read (.plain requestLimit) = (.bytes (b :: bs), t)) {longer : Bytes}
    (hl : longer = pending ++ b :: bs) :
    dropped pending pipe =
      if requestLimit < longer.length then longer :: dropped [] t else dropped longer t := by
  rw [dropped, fillings_of_none hp hr, List.filter_cons, ← hl]
  by_cases too : requestLimit < longer.length
  · simp only [too, if_true, decide_true, dropped]
  · simp only [too, if_false, decide_false, Bool.false_eq_true, dropped]

theorem dropped_of_interrupted {cause : SystemError} (hp : splitLine? pending = none)
    (hr : pipe.read (.plain requestLimit) = (.failed cause, t)) (hi : cause.kind = .interrupted) :
    dropped pending pipe = dropped pending t := by
  rw [dropped, fillings_of_none hp hr, dropped]
  simp [hi]

private theorem room_pos (s : Source) : 0 < (Call.plain requestLimit).room s.gathers :=
  Nat.zero_lt_succ _

/-- A call ends without a line when a read says that nothing is there. -/
theorem Dequeues.of_nothing (hp : splitLine? pending = none)
    (hr : pipe.read (.plain requestLimit) = (a, t)) (ha : a.isNothing) :
    Dequeues pending pipe ⟨.ok none, pending, t⟩ := by
  have yields := (Source.read_yields hr).1
  have same := yields.unread
  rw [got_of_isNothing ha, List.nil_append] at same
  refine ⟨?_, ⟨_, yields⟩, nofun, fun _ => ⟨splitLine?_eq_none_iff.mp hp, pipe, a, hr, ha⟩,
    fun patient => ⟨⟨_, rfl⟩, fun _ => (patient.read (room_pos pipe) hr).1 ha⟩⟩
  rw [dropped_of_isNothing hp hr ha, same]
  rfl

/-- A call that reads goes on from what it kept. -/
theorem Dequeues.after_read {kept : Bytes} {d : Dequeued} (h : Dequeues kept t d)
    (hr : pipe.read (.plain requestLimit) = (a, t))
    (conserved : pending ++ pipe.unread =
      (dropped pending pipe).flatten ++ (d.line ++ (d.pending ++ d.pipe.unread))) :
    Dequeues pending pipe d := by
  have first := (Source.read_yields hr).1
  obtain ⟨got, yields⟩ := h.yields
  refine ⟨conserved, ⟨_, first.trans yields⟩, h.isLine, h.nothing, fun patient => ?_⟩
  obtain ⟨ok, paused⟩ := h.patient (first.patient patient)
  exact ⟨ok, fun none => (paused none).imp_left fun lt => Nat.lt_of_lt_of_le lt first.pauses_le⟩

theorem nextRequest_dequeues (pending : Bytes) (pipe : Source) :
    Dequeues pending pipe (nextRequest pending pipe) := by
  fun_induction nextRequest pending pipe with
  | case1 pending pipe line rest hs =>
    obtain ⟨rfl, isLine⟩ := splitLine?_eq_some_iff.mp hs
    have none : dropped (line ++ rest) pipe = [] := by
      rw [dropped, fillings]
      simp [hs]
    refine ⟨?_, ⟨[], .refl pipe⟩, ?_, nofun, fun _ => ⟨⟨_, rfl⟩, nofun⟩⟩
    · rw [none]
      simp [Dequeued.line, Except.toOption]
    · rintro _ ⟨⟩
      exact isLine
  | case2 pending pipe hs t hr => exact .of_nothing hs hr rfl
  | case3 pending pipe hs b bs t hr longer ih =>
    refine ih.after_read hr ?_
    have conserved := ih.conserved
    have start : pending ++ pipe.unread = longer ++ t.unread := by
      rw [(Source.read_yields hr).1.unread, ← List.append_assoc]
      rfl
    rw [start, dropped_of_read hs hr (rfl : longer = pending ++ b :: bs)]
    simp only [dite_eq_ite] at conserved ⊢
    clear_value longer
    by_cases hl : requestLimit < longer.length
    · rw [if_pos hl] at conserved ⊢
      rw [if_pos hl, List.flatten_cons, List.append_assoc]
      exact congrArg (longer ++ ·) conserved
    · rw [if_neg hl] at conserved ⊢
      rw [if_neg hl]
      exact conserved
  | case4 pending pipe hs cause t hr hi ih =>
    refine ih.after_read hr ?_
    rw [dropped_of_interrupted hs hr hi, (Source.read_yields hr).1.unread]
    exact ih.conserved
  | case5 pending pipe hs cause t hr hi hw => exact .of_nothing hs hr (decide_eq_true hw)
  | case6 pending pipe hs cause t hr hi hw =>
    have yields := (Source.read_yields hr).1
    refine ⟨?_, ⟨_, yields⟩, nofun, nofun, fun patient => ?_⟩
    · rw [dropped, fillings_of_none hs hr, yields.unread]
      simp [hi, Dequeued.line, Except.toOption, ReadAnswer.got]
    · exact absurd ((patient.read (room_pos pipe) hr).2 cause rfl) (by simp [hi, hw])

def takeRequests : Nat → Bytes → Source → List Dequeued
  | 0, _, _ => []
  | n + 1, pending, pipe =>
    let d := nextRequest pending pipe
    d :: takeRequests n d.pending d.pipe

def fillingsOf : Nat → Bytes → Source → List Bytes
  | 0, _, _ => []
  | n + 1, pending, pipe =>
    let d := nextRequest pending pipe
    fillings pending pipe ++ fillingsOf n d.pending d.pipe

/-- The lines that calls returned. -/
def returned (ds : List Dequeued) : List Bytes := ds.filterMap (·.result.toOption.join)

theorem returned_cons (d : Dequeued) (ds : List Dequeued) :
    returned (d :: ds) = (d.result.toOption.join).toList ++ returned ds := by
  unfold returned
  rw [List.filterMap_cons]
  cases d.result.toOption.join <;> rfl

theorem length_line (d : Dequeued) :
    d.line.length = ((d.result.toOption.join).toList).flatten.length := by
  unfold Dequeued.line
  cases d.result.toOption.join <;> simp

/-- What was returned and what was dropped was there, each byte once. -/
theorem returned_dropped_le (n : Nat) (pending : Bytes) (pipe : Source) :
    (returned (takeRequests n pending pipe)).flatten.length +
        ((fillingsOf n pending pipe).filter (requestLimit < ·.length)).flatten.length ≤
      (pending ++ pipe.unread).length := by
  induction n generalizing pending pipe with
  | zero => exact Nat.zero_le _
  | succ n ih =>
    have conserved := congrArg List.length (nextRequest_dequeues pending pipe).conserved
    have later := ih (nextRequest pending pipe).pending (nextRequest pending pipe).pipe
    simp only [takeRequests, fillingsOf, returned_cons, List.filter_append, List.flatten_append,
      List.length_append, ← length_line] at conserved later ⊢
    unfold dropped at conserved
    omega

theorem IsLine.ne_nil {line : Bytes} (h : IsLine line) : line ≠ [] := by
  obtain ⟨body, rfl, -⟩ := h
  simp

theorem first_line {lines : List Bytes} {line rest : Bytes} (h : ∀ l ∈ lines, IsLine l)
    (isLine : IsLine line) (e : lines.flatten = line ++ rest) :
    ∃ others, lines = line :: others ∧ rest = others.flatten := by
  cases lines with
  | nil => exact absurd (List.append_eq_nil_iff.mp e.symm).1 isLine.ne_nil
  | cons first others =>
    have here : splitLine? (first ++ others.flatten) = some (first, others.flatten) :=
      splitLine?_eq_some_iff.mpr ⟨rfl, h first (List.mem_cons_self ..)⟩
    have there := splitLine?_eq_some_iff.mpr ⟨e, isLine⟩
    rw [List.flatten_cons, here] at there
    obtain ⟨rfl, rfl⟩ := Prod.mk.inj (Option.some.inj there)
    exact ⟨others, rfl, rfl⟩

theorem eq_nil_of_no_end {lines : List Bytes} (isLine : ∀ l ∈ lines, IsLine l)
    (h : newline ∉ lines.flatten) : lines = [] := by
  refine List.eq_nil_iff_forall_not_mem.mpr fun l hl => h ?_
  obtain ⟨body, rfl, -⟩ := isLine l hl
  exact List.mem_flatten.mpr ⟨_, hl, by simp⟩

/-- As long as nothing is dropped the calls return the first lines, and in the end all of them. -/
theorem returned_of_kept {n : Nat} {lines : List Bytes} {pending : Bytes} {pipe : Source}
    (isLine : ∀ l ∈ lines, IsLine l) (there : pending ++ pipe.unread = lines.flatten)
    (short : ∀ b ∈ fillingsOf n pending pipe, b.length ≤ requestLimit) :
    returned (takeRequests n pending pipe) <+: lines ∧
      (pipe.Patient → lines.length + pipe.pauses ≤ n →
        returned (takeRequests n pending pipe) = lines) := by
  induction n generalizing lines pending pipe with
  | zero =>
    refine ⟨List.nil_prefix, fun _ few => ?_⟩
    exact (List.eq_nil_of_length_eq_zero (by omega)).symm
  | succ n ih =>
    have d := nextRequest_dequeues pending pipe
    generalize hd : nextRequest pending pipe = next at d
    simp only [takeRequests, fillingsOf, hd, returned_cons] at short ⊢
    obtain ⟨now, later⟩ := List.forall_mem_append.mp short
    have conserved := d.conserved
    have none : dropped pending pipe = [] :=
      List.filter_eq_nil_iff.mpr fun b hb => by simpa using now b hb
    rw [there, none, List.flatten_nil, List.nil_append] at conserved
    obtain ⟨got, yields⟩ := d.yields
    -- A call without a line leaves the same lines, and the stream has one pause less or nothing.
    have idle (h : next.result.toOption.join = Option.none) :
        returned (takeRequests n next.pending next.pipe) <+: lines ∧
          (pipe.Patient → lines.length + pipe.pauses ≤ n + 1 →
            returned (takeRequests n next.pending next.pipe) = lines) := by
      have same : next.pending ++ next.pipe.unread = lines.flatten := by
        rw [conserved]
        simp [Dequeued.line, h]
      obtain ⟨first, all⟩ := ih isLine same later
      refine ⟨first, fun patient many => ?_⟩
      obtain ⟨⟨r, hr⟩, paused⟩ := d.patient patient
      obtain rfl : r = Option.none := by simpa [hr, Except.toOption] using h
      rcases paused hr with fewer | empty
      · exact all (yields.patient patient) (by omega)
      · rw [empty, List.append_nil] at same
        obtain rfl := eq_nil_of_no_end isLine (same ▸ (d.nothing hr).1)
        exact List.prefix_nil.mp first
    cases hl : next.result.toOption.join with
    | none => simpa using idle hl
    | some line =>
      have hr : next.result = .ok (some line) := by
        cases hres : next.result with
        | error e => simp [hres, Except.toOption] at hl
        | ok r => simpa [hres, Except.toOption] using hl
      have took : next.line = line := by simp [Dequeued.line, hl]
      rw [took] at conserved
      obtain ⟨others, rfl, rest⟩ := first_line isLine (d.isLine line hr) conserved
      obtain ⟨first, all⟩ := ih (fun l hm => isLine l (List.mem_cons_of_mem _ hm)) rest later
      have fewer := yields.pauses_le
      refine ⟨by simpa using first, fun patient many => ?_⟩
      rw [List.length_cons] at many
      simpa using all (yields.patient patient) (by omega)

theorem fillingsOf_mono {n m : Nat} (h : n ≤ m) {pending : Bytes} {pipe : Source} {buffer : Bytes}
    (hb : buffer ∈ fillingsOf n pending pipe) : buffer ∈ fillingsOf m pending pipe := by
  induction n generalizing m pending pipe with
  | zero => cases hb
  | succ n ih =>
    obtain ⟨m, rfl⟩ := Nat.exists_eq_succ_of_ne_zero (Nat.ne_of_gt (Nat.lt_of_lt_of_le n.succ_pos h))
    rcases List.mem_append.mp hb with hb | hb
    · exact List.mem_append_left _ hb
    · exact List.mem_append_right _ (ih (Nat.le_of_succ_le_succ h) hb)

theorem fillings_le {pending buffer : Bytes} {pipe : Source} (hb : buffer ∈ fillings pending pipe) :
    buffer.length ≤ (pending ++ pipe.unread).length := by
  fun_induction fillings pending pipe with
  | case1 => cases hb
  | case2 => cases hb
  | case3 pending pipe hs b bs t hr longer ih =>
    have there := congrArg List.length (Source.read_yields hr).1.unread
    simp only [ReadAnswer.got, List.length_append] at there ⊢
    have whole : longer.length = pending.length + (b :: bs).length := List.length_append
    rcases List.mem_cons.mp hb with rfl | hb
    · omega
    · have rest := ih hb
      rw [List.length_append] at rest
      split at rest
      · rw [List.length_nil] at rest
        omega
      · omega
  | case4 pending pipe hs cause t hr hi ih =>
    have same := (Source.read_yields hr).1.unread
    exact same ▸ ih hb
  | case5 => cases hb

theorem fillingsOf_le {n : Nat} {pending buffer : Bytes} {pipe : Source}
    (hb : buffer ∈ fillingsOf n pending pipe) :
    buffer.length ≤ (pending ++ pipe.unread).length := by
  induction n generalizing pending pipe with
  | zero => cases hb
  | succ n ih =>
    rcases List.mem_append.mp hb with hb | hb
    · exact fillings_le hb
    · refine Nat.le_trans (ih hb) ?_
      have conserved := (nextRequest_dequeues pending pipe).conserved
      rw [← List.append_assoc] at conserved
      exact conserved ▸ (List.suffix_append _ _).length_le

theorem length_returned_le (n : Nat) (pending : Bytes) (pipe : Source) :
    (returned (takeRequests n pending pipe)).length ≤ n := by
  refine Nat.le_trans (List.length_filterMap_le ..) ?_
  induction n generalizing pending pipe with
  | zero => exact Nat.le_refl _
  | succ n ih => exact Nat.succ_le_succ (ih _ _)

/-- A buffer that grew too long cost some of the bytes. -/
theorem returned_of_dropped {n : Nat} {pending buffer : Bytes} {pipe : Source}
    (hb : buffer ∈ fillingsOf n pending pipe) (long : requestLimit < buffer.length) :
    (returned (takeRequests n pending pipe)).flatten.length + buffer.length ≤
      (pending ++ pipe.unread).length := by
  have kept := returned_dropped_le n pending pipe
  have among : buffer ∈ (fillingsOf n pending pipe).filter (requestLimit < ·.length) :=
    List.mem_filter.mpr ⟨hb, decide_eq_true long⟩
  have some := (List.sublist_flatten_of_mem among).length_le
  omega

/-- What a call on requests answers, however they were written and read. -/
theorem answer_of_mem {n : Nat} {pending : Bytes} {pipe : Source} (patient : pipe.Patient)
    {d : Dequeued} (hd : d ∈ takeRequests n pending pipe) :
    (∃ r, d.result = .ok r) ∧
      (d.result = .ok none → newline ∉ d.pending ∧
        ∃ (s : Source) (a : ReadAnswer),
          s.read (.plain requestLimit) = (a, d.pipe) ∧ a.isNothing) := by
  induction n generalizing pending pipe with
  | zero => cases hd
  | succ n ih =>
    have next := nextRequest_dequeues pending pipe
    rcases List.mem_cons.mp hd with rfl | hd
    · exact ⟨(next.patient patient).1, next.nothing⟩
    · obtain ⟨got, yields⟩ := next.yields
      exact ih (yields.patient patient) hd

/-- Whatever requests were written, and however they are read, no call fails, and one ends without
a request only when a read says that nothing is there and no request is complete. The calls return
the requests in order, and in the end all of them, exactly if no read ever makes the buffer longer
than the longest request. -/
theorem returned_iff {requests : List Bytes} {pipe : Source}
    (valid : ∀ request ∈ requests, IsRequest request) (written : pipe.unread = requests.flatten)
    (patient : pipe.Patient) :
    (∀ n, ∀ d ∈ takeRequests n [] pipe, (∃ r, d.result = .ok r) ∧
      (d.result = .ok none → newline ∉ d.pending ∧
        ∃ (s : Source) (a : ReadAnswer),
          s.read (.plain requestLimit) = (a, d.pipe) ∧ a.isNothing)) ∧
    ((∀ n, returned (takeRequests n [] pipe) <+: requests ∧
        (requests.length + pipe.pauses ≤ n → returned (takeRequests n [] pipe) = requests)) ↔
      ∀ n, ∀ buffer ∈ fillingsOf n [] pipe, buffer.length ≤ requestLimit) := by
  refine ⟨fun n d hd => answer_of_mem patient hd, fun all n buffer hb => ?_, fun short n => ?_⟩
  · refine Nat.not_lt.mp fun long => ?_
    let enough := max n (requests.length + pipe.pauses)
    have whole := (all enough).2 (Nat.le_max_right ..)
    have later : buffer ∈ fillingsOf enough [] pipe := fillingsOf_mono (Nat.le_max_left ..) hb
    have lost := returned_of_dropped later long
    rw [whole, List.nil_append, written] at lost
    omega
  · obtain ⟨first, rest⟩ := returned_of_kept (fun r hr => (valid r hr).isLine)
      (by rw [List.nil_append, written]) (short n)
    exact ⟨first, rest patient⟩

def letters (count : Nat) : Bytes := List.replicate count 120 ++ [newline]

theorem letters_isRequest {count : Nat} (h : count < requestLimit) : IsRequest (letters count) := by
  refine ⟨⟨_, rfl, ?_⟩, ?_⟩
  · simp [newline]
  · rw [letters, List.length_append, List.length_replicate]
    exact h

def piecemeal : Source where
  unread := letters 3 ++ letters 2
  turns := [.move 2, .fail (.bare .interrupted), .move 3, .fail (.bare .wouldBlock)]

theorem returned_iff_piecemeal :
    (∀ request ∈ [letters 3, letters 2], IsRequest request) ∧ piecemeal.Patient ∧
      returned (takeRequests 3 [] piecemeal) = [letters 3, letters 2] := by
  have valid : ∀ request ∈ [letters 3, letters 2], IsRequest request := by
    intro request h
    simp only [List.mem_cons, List.not_mem_nil, or_false] at h
    rcases h with rfl | rfl <;> exact letters_isRequest (by decide)
  have patient : piecemeal.Patient := ⟨by decide, rfl⟩
  obtain ⟨-, iff⟩ := returned_iff valid (by rfl) patient
  have short : ∀ n, ∀ buffer ∈ fillingsOf n [] piecemeal, buffer.length ≤ requestLimit :=
    fun n buffer hb => Nat.le_trans (fillingsOf_le hb) (by decide)
  exact ⟨valid, patient, (iff.mpr short 3).2 (by decide)⟩

/-- Three requests that are there at once. The first read takes the first one and a part of the
second. -/
def threeRequests : List Bytes := [letters 299, letters 299, letters 299]

theorem loses_threeRequests :
    (∀ request ∈ threeRequests, IsRequest request) ∧
      ({ unread := threeRequests.flatten } : Source).Patient ∧
      ∀ n, returned (takeRequests n [] { unread := threeRequests.flatten }) ≠ threeRequests := by
  refine ⟨fun request h => ?_, ⟨nofun, rfl⟩, fun n all => ?_⟩
  · simp only [threeRequests, List.mem_cons, List.not_mem_nil, or_false, or_self] at h
    exact h ▸ letters_isRequest (by decide)
  · obtain ⟨buffer, hb, long⟩ : ∃ buffer ∈ fillingsOf 2 [] { unread := threeRequests.flatten },
        requestLimit < buffer.length := by decide +kernel
    rcases Nat.lt_or_ge n 2 with few | many
    · have fewer : (returned (takeRequests n [] { unread := threeRequests.flatten })).length ≤ n :=
        length_returned_le ..
      rw [all] at fewer
      exact absurd (Nat.lt_of_le_of_lt fewer few) (by decide)
    · have lost := returned_of_dropped (fillingsOf_mono many hb) long
      rw [all, List.nil_append] at lost
      have nothing : buffer.length = 0 := Nat.le_zero.mp (Nat.le_of_add_le_add_left lost)
      exact absurd (nothing ▸ long) (Nat.not_lt_zero _)

end ModuleLink
