import ModuleLink.Proofs.BoundedWaits
import ModuleLink.Proofs.ReplyDeadlines

/-! # Receptions that are late

A reception makes its reads one after the other and gives up at the first that fails. So it is late
exactly if the last read that it made was, and how many reads it made is how many turns of its stream
are gone. -/
namespace ModuleLink

def Filled.isLate (filled : Filled) : Bool :=
  match filled.result with
  | .error e => e.isTimeout
  | .ok _ => false

def Reception.isLate (r : Reception) : Bool :=
  match r.result with
  | .error e => e.isTimeout
  | .ok _ => false

theorem Classifier.not_late_of_ensurePacked {c : Classifier} {e : FrameError}
    (h : c.ensurePacked = .error e) : e.isTimeout = false := by
  unfold ensurePacked at h
  split at h
  · cases h
  · cases h
    rfl

namespace Source

structure Advances (s t : Source) (reads : Nat) : Prop where
  turns : t.turns = s.turns.drop reads
  calls : t.calls.length = s.calls.length + reads
  exhaustion : t.exhaustion = s.exhaustion

def LateAt (s : Source) (reads : Nat) : Prop :=
  ∃ k cause, reads = k + 1 ∧ s.turns[k]? = some (.fail cause) ∧ cause.isLate

variable {s t u : Source} {call : Call} {m n : Nat}

theorem Advances.refl (s : Source) : s.Advances s 0 := ⟨rfl, rfl, rfl⟩

theorem Advances.trans (h : s.Advances t m) (h' : t.Advances u n) : s.Advances u (m + n) where
  turns := by rw [h'.turns, h.turns, List.drop_drop]
  calls := by rw [h'.calls, h.calls, Nat.add_assoc]
  exhaustion := h'.exhaustion.trans h.exhaustion

theorem LateAt.after (h : s.Advances t m) (late : t.LateAt n) : s.LateAt (m + n) := by
  obtain ⟨k, cause, rfl, turn, isLate⟩ := late
  rw [h.turns, List.getElem?_drop] at turn
  exact ⟨m + k, cause, rfl, turn, isLate⟩

theorem advances_of_read {answer : ReadAnswer} (h : s.read call = (answer, t)) : s.Advances t 1 := by
  obtain rfl : (s.read call).2 = t := congrArg Prod.snd h
  have hands : ∀ (v : Source) (most : Nat), (v.hand most).2.turns = v.turns ∧
      (v.hand most).2.calls = v.calls ∧ (v.hand most).2.exhaustion = v.exhaustion := by
    intro v most
    unfold hand
    split <;> exact ⟨rfl, rfl, rfl⟩
  unfold read
  dsimp only
  split
  · rename_i none
    obtain ⟨turns, calls, exhaustion⟩ :=
      hands { s with calls := s.calls ++ [call] } (call.room s.gathers)
    refine ⟨?_, ?_, exhaustion⟩
    · rw [turns, none]
      rfl
    · rw [calls, List.length_append]
      rfl
  · rename_i most turns ht
    obtain ⟨same, calls, exhaustion⟩ :=
      hands { s with turns, calls := s.calls ++ [call] } (min most (call.room s.gathers))
    refine ⟨?_, ?_, exhaustion⟩
    · rw [same, ht]
      rfl
    · rw [calls, List.length_append]
      rfl
  · rename_i cause turns ht
    refine ⟨?_, ?_, rfl⟩
    · rw [ht]
      rfl
    · rw [List.length_append]
      rfl

theorem lateAt_of_read {cause : SystemError} (h : s.read call = (.failed cause, t))
    (late : cause.isLate) (ended : s.exhaustion = .ended) : s.LateAt 1 :=
  ⟨0, cause, rfl, (List.head?_eq_getElem? ..).symm.trans (turn_of_failed h ended), late⟩

/-- Reads were made, and if they are called late then the last of them was. -/
def Reads (s t : Source) (late : Bool) : Prop :=
  ∃ n, s.Advances t n ∧ (late = true → s.exhaustion = .ended → s.LateAt n)

theorem Reads.after {late : Bool} (h : s.Advances t m) (h' : t.Reads u late) : s.Reads u late := by
  obtain ⟨n, advances, last⟩ := h'
  exact ⟨m + n, h.trans advances, fun isLate ended =>
    LateAt.after h (last isLate (h.exhaustion.trans ended))⟩

theorem Advances.reads (h : s.Advances t n) : s.Reads t false := ⟨n, h, nofun⟩

/-- A failed read ends a loop, which is late if the read was. -/
theorem reads_of_failed {cause : SystemError} (h : s.read call = (.failed cause, t))
    (expected received : Nat) : s.Reads t (readFailure cause expected received).isTimeout := by
  refine ⟨1, advances_of_read h, fun late ended => lateAt_of_read h ?_ ended⟩
  simp only [readFailure] at late
  split at late
  · exact .inl ‹_›
  · exact .inr ‹_›
  · cases late

theorem readRest_reads (s : Source) (expected : Nat) (got : Bytes) :
    s.Reads (s.readRest expected got).2 (s.readRest expected got).1.isLate := by
  fun_induction readRest s expected got with
  | case1 s got missing t h => exact (advances_of_read h).reads
  | case2 s got missing b bs t h ih => exact ih.after (advances_of_read h)
  | case3 s got missing cause t h interrupted ih => exact ih.after (advances_of_read h)
  | case4 s got missing cause t h failed => exact reads_of_failed h expected got.length
  | case5 s got enough => exact (Advances.refl s).reads

theorem readRestScattered_reads (s : Source) (buffers : List Nat) (expected : Nat) (got : Bytes) :
    s.Reads (s.readRestScattered buffers expected got).2
      (s.readRestScattered buffers expected got).1.isLate := by
  fun_induction readRestScattered s buffers expected got with
  | case1 s got => exact (Advances.refl s).reads
  | case2 s buffers got some t h => exact (advances_of_read h).reads
  | case3 s buffers got some b bs t h ih => exact ih.after (advances_of_read h)
  | case4 s buffers got some cause t h interrupted ih => exact ih.after (advances_of_read h)
  | case5 s buffers got some cause t h failed => exact reads_of_failed h expected got.length

/-- A reception makes some reads, and is late if the last of them was. -/
theorem receive_reads (s : Source) (limits : Limits) (consumed : Nat) :
    s.Reads (receive s limits).2 (Reception.mk (receive s limits).1 consumed).isLate := by
  have header := s.readRest_reads Header.size []
  simp only [receive, receiveHeader, readExact]
  generalize s.readRest Header.size [] = read at header ⊢
  obtain ⟨⟨got, result⟩, t⟩ := read
  cases result with
  | error e => exact header
  | ok =>
    obtain ⟨n, advances, -⟩ := header
    dsimp only
    cases checked : (Header.decode got).check limits with
    | error e =>
      obtain ⟨segment, size, limit, rfl⟩ := Header.check_error checked
      exact advances.reads
    | ok =>
      refine Reads.after advances ?_
      have body := t.readRestScattered_reads (advance [(Header.decode got).classTotal.toNat,
        (Header.decode got).messageTotal.toNat] 0)
        ((Header.decode got).classTotal.toNat + (Header.decode got).messageTotal.toNat) []
      simp only [receiveBody, receiveSegments, readScattered]
      generalize t.readRestScattered _ _ _ = read at body ⊢
      obtain ⟨⟨rest, result⟩, u⟩ := read
      cases result with
      | error e => exact body
      | ok =>
        obtain ⟨k, advances', -⟩ := body
        have inTime : (Reception.mk ((Classifier.unpack (Header.decode got).classifier).ensurePacked.map
            fun _ => (⟨Header.decode got, (rest.splitAt (Header.decode got).classTotal.toNat).1,
              (rest.splitAt (Header.decode got).classTotal.toNat).2⟩ : Envelope)) consumed).isLate =
            false := by
          cases packed : (Classifier.unpack (Header.decode got).classifier).ensurePacked with
          | error e => exact Classifier.not_late_of_ensurePacked packed
          | ok => rfl
        exact ⟨k, advances', fun late => absurd (late.symm.trans inTime) (by decide)⟩

theorem receiveReply_reads {c d : Connection} {limits : Limits} {b b' : Option ReplyBuffer}
    {r : Reception} (h : c.receiveReply limits b = (r, b', d)) :
    c.incoming.Reads d.incoming r.isLate := by
  cases b with
  | none =>
    obtain ⟨rfl, -, rfl⟩ := by simpa only [Connection.receiveReply, Prod.mk.injEq] using h.symm
    exact receive_reads c.incoming limits _
  | some b =>
    obtain ⟨result, same⟩ := receiveWithReply_eq c.incoming limits b
    obtain ⟨rfl, -, rfl⟩ := by simpa only [Connection.receiveReply, Prod.mk.injEq] using h.symm
    dsimp only
    rw [result, same]
    exact receive_reads c.incoming limits _

theorem receive_of_late {cause : SystemError} (limits : Limits)
    (h : s.read (.plain Header.size) = (.failed cause, t)) (late : cause.isLate) :
    receive s limits = (.error (.transport (.timedOut Header.size 0)), t) := by
  have failure : readFailure cause Header.size 0 = .timedOut Header.size 0 := by
    rcases late with kind | kind <;> simp only [readFailure, kind]
  have still : cause.kind ≠ .interrupted := by
    rcases late with kind | kind <;> rw [kind] <;> decide
  have loop : s.readRest Header.size [] = (⟨[], .error (.timedOut Header.size 0)⟩, t) := by
    rw [readRest, if_pos (by decide)]
    split
    · exact absurd (h.symm.trans ‹_›) (by simp)
    · exact absurd (h.symm.trans ‹_›) (by simp)
    · rename_i error u hr
      obtain ⟨same, rfl⟩ := Prod.mk.inj (h.symm.trans hr)
      obtain rfl := ReadAnswer.failed.inj same
      rw [dif_neg still]
      exact congrArg (fun e => (Filled.mk [] (.error e), t)) failure
  simp only [receive, receiveHeader, readExact, loop]

end Source

end ModuleLink
