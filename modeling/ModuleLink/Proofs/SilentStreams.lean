import ModuleLink.Proofs.EnvelopeReception

/-! # Streams that are silent for now

On a stream that hands out all it has and then is silent, a read has to wait only behind the last
byte. So an attempt to receive that finds part of an envelope there has to wait for the rest of it. -/
namespace ModuleLink

theorem TransportError.isDisconnect_of_isTimeout {e : TransportError} (late : e.isTimeout = true) :
    e.isDisconnect = false := by
  cases e with
  | timedOut => rfl
  | _ => cases late

namespace Source

/-- Nothing stands between the bytes that have arrived and a read, and none follow for now. -/
structure Idle (s : Source) : Prop where
  turns : s.turns = []
  silent : s.exhaustion = .silent

theorem Yields.idle {s t : Source} {taken : Bytes} (h : s.Yields taken t) (idle : s.Idle) : t.Idle :=
  ⟨List.suffix_nil.mp (idle.turns ▸ h.turns), h.exhaustion.trans idle.silent⟩

theorem Idle.goesOn {s : Source} (idle : s.Idle) : ∀ turn ∈ s.turns, turn.goesOn := by
  rw [idle.turns]
  exact List.forall_mem_nil _

/-- A read gets something or has to wait. -/
theorem Idle.read {s t : Source} {c : Call} {a : ReadAnswer} (idle : s.Idle) (h : s.read c = (a, t))
    (hc : 0 < c.room s.gathers) : (∃ b bs, a = .bytes (b :: bs)) ∨ a = .failed (.bare .timedOut) := by
  by_cases hu : s.unread = []
  · simp only [Source.read, idle.turns, hand] at h
    rw [if_pos ⟨idle.silent, hu, Nat.ne_of_gt hc⟩] at h
    exact .inr (Prod.mk.inj h).1.symm
  · rcases read_goesOn h idle.goesOn hu hc with got | ⟨cause, rfl, interrupted⟩
    · exact .inl got
    · simp only [Source.read, idle.turns, hand] at h
      rw [if_neg fun silent => hu silent.2.1] at h
      cases h

theorem Idle.failed {s t : Source} {c : Call} {cause : SystemError} (idle : s.Idle)
    (h : s.read c = (.failed cause, t)) (hc : 0 < c.room s.gathers) : cause = .bare .timedOut := by
  rcases idle.read h hc with ⟨b, bs, none⟩ | late
  · cases none
  · exact ReadAnswer.failed.inj late

/-- A loop that comes up short has to wait. -/
theorem Idle.readRest {s : Source} (idle : s.Idle) (expected : Nat) (got : Bytes) (e : TransportError)
    (short : (s.readRest expected got).1.result = .error e) : e.isTimeout = true := by
  fun_induction Source.readRest s expected got with
  | case1 s got hlt t h =>
    rcases idle.read h (Nat.sub_pos_of_lt hlt) with ⟨b, bs, none⟩ | none <;> cases none
  | case2 s got _ b bs t h ih => exact ih ((read_yields h).1.idle idle) short
  | case3 s got _ cause t h _ ih => exact ih ((read_yields h).1.idle idle) short
  | case4 s got hlt cause t h _ =>
    obtain rfl := idle.failed h (Nat.sub_pos_of_lt hlt)
    exact Except.error.inj short ▸ rfl
  | case5 => cases short

theorem Idle.readRestScattered {s : Source} (idle : s.Idle) (buffers : List Nat) (expected : Nat)
    (got : Bytes) (hb : buffers ≠ [] → 0 < capacity buffers) (e : TransportError)
    (short : (s.readRestScattered buffers expected got).1.result = .error e) : e.isTimeout = true := by
  fun_induction Source.readRestScattered s buffers expected got with
  | case1 => cases short
  | case2 s buffers got some t h =>
    rcases idle.read h (Call.room_spread_pos _ (hb some)) with ⟨b, bs, none⟩ | none <;> cases none
  | case3 s buffers got _ b bs t h ih =>
    exact ih ((read_yields h).1.idle idle) capacity_advance_pos short
  | case4 s buffers got _ cause t h _ ih => exact ih ((read_yields h).1.idle idle) hb short
  | case5 s buffers got some cause t h _ =>
    obtain rfl := idle.failed h (Call.room_spread_pos _ (hb some))
    exact Except.error.inj short ▸ rfl

end Source

theorem receiveHeader_of_idle {s t : Source} {e : FrameError} (idle : s.Idle)
    (failed : receiveHeader s = (.error e, t)) : e.isTimeout = true := by
  have late := idle.readRest Header.size []
  rw [receiveHeader, Source.readExact] at failed
  generalize s.readRest Header.size [] = r at late failed
  obtain ⟨⟨got, result⟩, u⟩ := r
  cases result with
  | ok => cases failed
  | error cause =>
    cases failed
    exact late cause rfl

theorem receiveBody_of_idle {s t : Source} {h : Header} {e : TransportError} (idle : s.Idle)
    (failed : receiveBody s h = (.error (.transport e), t)) : e.isTimeout = true := by
  have late := idle.readRestScattered (advance [h.classTotal.toNat, h.messageTotal.toNat] 0)
    (h.classTotal.toNat + h.messageTotal.toNat) [] capacity_advance_pos
  rw [receiveBody, receiveSegments, Source.readScattered] at failed
  generalize s.readRestScattered _ _ _ = r at late failed
  obtain ⟨⟨got, result⟩, u⟩ := r
  cases result with
  | ok =>
    have refused := congrArg Prod.fst failed
    by_cases packed : (Classifier.unpack h.classifier).alignment = .packed
    · rw [Classifier.ensurePacked_of_packed packed] at refused
      cases refused
    · rw [Classifier.ensurePacked_of_ne packed] at refused
      cases refused
  | error cause =>
    cases failed
    exact late e rfl

/-- An attempt that the stream fails has to wait. -/
theorem receive_of_idle {s t : Source} {limits : Limits} {e : TransportError} (idle : s.Idle)
    (failed : receive s limits = (.error (.transport e), t)) : e.isTimeout = true := by
  unfold receive at failed
  split at failed
  · rename_i cause u hu
    cases failed
    exact receiveHeader_of_idle idle hu
  · rename_i h u hu
    split at failed
    · rename_i cause refused
      obtain ⟨segment, size, limit, rfl⟩ := Header.check_error refused
      cases failed
    · obtain ⟨taken, hy, -, -⟩ := receiveHeader_attempt hu
      exact receiveBody_of_idle (hy.idle idle) failed

/-- Part of an envelope that would be accepted is waited for. -/
theorem receive_of_part {s : Source} {limits : Limits} {m : Envelope} {missing : Bytes}
    (idle : s.Idle) (hm : m.Acceptable limits) (part : s.unread ++ missing = m.wire)
    (some : missing ≠ []) :
    ∃ e t, receive s limits = (.error (.transport e), t) ∧ e.isTimeout = true ∧ t.Idle := by
  rcases hr : receive s limits with ⟨result, t⟩
  obtain ⟨taken, hy, attempt⟩ := receive_attempt hr
  have start : taken ++ (t.unread ++ missing) = m.wire ++ [] := by
    rw [← List.append_assoc, ← hy.unread, part, List.append_nil]
  obtain ⟨-, -, nothing⟩ | ⟨-, e, rfl⟩ := attempt.of_wire hm start
  · exact absurd (List.append_eq_nil_iff.mp nothing).2 some
  · exact ⟨e, t, rfl, receive_of_idle idle hr, hy.idle idle⟩

end ModuleLink
