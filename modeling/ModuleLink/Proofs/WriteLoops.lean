import ModuleLink.Connections
import ModuleLink.Proofs.EnvelopeReception

/-! # What the write loops put on a stream

However a stream cuts up and puts off its writes, a write loop that succeeds has written all its
segments in order, and on a willing stream it succeeds. Writing changes a connection nowhere
else. -/
namespace ModuleLink

def Turn.writesOn : Turn → Bool
  | move most => most ≠ 0
  | fail cause => Sink.isRetried cause

namespace Sink

/-- Somebody reads the stream, and no call on it fails for good. -/
structure Willing (s : Sink) : Prop where
  attended : s.gone = false
  turns : ∀ turn ∈ s.turns, turn.writesOn

theorem flatten_advance (segments : List Bytes) (moved : Nat) :
    (advance segments moved).flatten = segments.flatten.drop moved := by
  induction segments generalizing moved with
  | nil => simp [advance]
  | cons s ss ih =>
    simp only [advance]
    split
    · rename_i h
      rw [ih, List.flatten_cons, List.drop_append, List.drop_eq_nil_of_le h, List.nil_append]
    · rename_i h
      rw [List.flatten_cons, List.flatten_cons, List.drop_append_of_le_length (by omega)]

theorem take_written {s t : Sink} {bytes : Bytes} {most n : Nat}
    (h : s.take bytes most = (.took n, t)) : t.written = s.written ++ bytes.take n := by
  unfold take at h
  obtain ⟨hn, rfl⟩ := Prod.mk.inj h
  obtain rfl := WriteAnswer.took.inj hn
  rw [← List.take_take, List.take_length]

theorem write_took {s t : Sink} {c : Call} {bytes : Bytes} {n : Nat}
    (h : s.write c bytes = (.took n, t)) : t.written = s.written ++ bytes.take n := by
  unfold write at h
  split at h
  · cases h
  · split at h
    · have written := take_written h
      exact written
    · have written := take_written h
      exact written
    · cases h

theorem write_failed {s t : Sink} {c : Call} {bytes : Bytes} {e : SystemError}
    (h : s.write c bytes = (.failed e, t)) : t.written = s.written := by
  unfold write at h
  split at h
  · obtain ⟨-, rfl⟩ := Prod.mk.inj h
    rfl
  · split at h
    · cases h
    · cases h
    · obtain ⟨-, rfl⟩ := Prod.mk.inj h
      rfl

theorem writeRest_ok (s : Sink) (segments : List Bytes)
    (h : (s.writeRest segments).1 = .ok ()) :
    (s.writeRest segments).2.written = s.written ++ segments.flatten := by
  fun_induction writeRest s segments with
  | case1 s => simp
  | case2 => cases h
  | case3 s segments hne n t hw ha =>
    have all : segments.flatten.drop (n + 1) = [] := by rw [← flatten_advance, ha]; rfl
    rw [write_took hw, List.take_of_length_le (List.drop_eq_nil_iff.mp all)]
  | case4 s segments hne n t hw ha ih =>
    rw [ih h, write_took hw, flatten_advance, List.append_assoc, List.take_append_drop]
  | case5 s segments hne cause t hw hr ih => rw [ih h, write_failed hw]
  | case6 => cases h

theorem flatten_advance_ne_nil {segments : List Bytes} {moved : Nat}
    (h : advance segments moved ≠ []) : (advance segments moved).flatten ≠ [] := by
  induction segments generalizing moved with
  | nil => exact absurd rfl h
  | cons s ss ih =>
    simp only [advance] at h ⊢
    split
    · rename_i hs
      rw [if_pos hs] at h
      exact ih h
    · rename_i hs
      have left : s.drop moved ≠ [] := fun e => hs (List.drop_eq_nil_iff.mp e)
      rw [List.flatten_cons]
      exact fun e => left (List.append_eq_nil_iff.mp e).1

theorem capacity_map_length (segments : List Bytes) :
    capacity (segments.map List.length) = segments.flatten.length := by
  induction segments with
  | nil => rfl
  | cons s ss ih => rw [List.map_cons, capacity_cons, ih, List.flatten_cons, List.length_append]

/-- A call with bytes to write on a willing stream takes some of them, or is to be repeated. -/
theorem Willing.write {s t : Sink} {c : Call} {bytes : Bytes} {a : WriteAnswer} (hs : s.Willing)
    (h : s.write c bytes = (a, t)) (hb : bytes ≠ []) (hc : 0 < c.room s.gathers) :
    t.Willing ∧ ((∃ n, a = .took (n + 1)) ∨ ∃ cause, a = .failed cause ∧ isRetried cause) := by
  have long : 0 < bytes.length := List.length_pos_iff.mpr hb
  have took : ∀ k, 0 < k → ∃ n, WriteAnswer.took (min k bytes.length) = .took (n + 1) := by
    intro k hk
    obtain ⟨n, hn⟩ := Nat.exists_eq_succ_of_ne_zero (show min k bytes.length ≠ 0 by omega)
    exact ⟨n, by rw [hn]⟩
  have attended : ¬ s.gone = true := by simp [hs.attended]
  unfold Sink.write at h
  rw [if_neg attended] at h
  split at h
  · rename_i ht
    obtain ⟨rfl, rfl⟩ := Prod.mk.inj h
    exact ⟨⟨hs.attended, by simp [ht]⟩, .inl (took _ hc)⟩
  · rename_i most turns ht
    have rest : ∀ turn ∈ turns, turn.writesOn := fun turn h => hs.turns turn (by simp [ht, h])
    have first : most ≠ 0 := by simpa [Turn.writesOn] using hs.turns (.move most) (by simp [ht])
    obtain ⟨rfl, rfl⟩ := Prod.mk.inj h
    exact ⟨⟨hs.attended, rest⟩, .inl (took _ (by omega))⟩
  · rename_i cause turns ht
    have rest : ∀ turn ∈ turns, turn.writesOn := fun turn h => hs.turns turn (by simp [ht, h])
    have first : isRetried cause = true := hs.turns (.fail cause) (by simp [ht])
    obtain ⟨rfl, rfl⟩ := Prod.mk.inj h
    exact ⟨⟨hs.attended, rest⟩, .inr ⟨cause, rfl, first⟩⟩

/-- The loop on a willing stream ends well, and leaves it willing. -/
theorem Willing.writeRest {s : Sink} (hs : s.Willing) (segments : List Bytes)
    (hf : segments ≠ [] → segments.flatten ≠ []) :
    (s.writeRest segments).1 = .ok () ∧ (s.writeRest segments).2.Willing := by
  have room : ∀ (s : Sink) (segments : List Bytes), segments.flatten ≠ [] →
      0 < (Call.spread (segments.map List.length)).room s.gathers := by
    intro s segments hf
    apply Call.room_spread_pos
    rw [capacity_map_length]
    exact List.length_pos_iff.mpr hf
  fun_induction Sink.writeRest s segments with
  | case1 s => exact ⟨rfl, hs⟩
  | case2 s segments hne t hw =>
    obtain ⟨-, ⟨n, hn⟩ | ⟨cause, hn, -⟩⟩ := hs.write hw (hf hne) (room s segments (hf hne))
    · cases hn
    · cases hn
  | case3 s segments hne n t hw ha => exact ⟨rfl, (hs.write hw (hf hne) (room s _ (hf hne))).1⟩
  | case4 s segments hne n t hw ha ih =>
    exact ih (hs.write hw (hf hne) (room s _ (hf hne))).1 flatten_advance_ne_nil
  | case5 s segments hne cause t hw hr ih =>
    exact ih (hs.write hw (hf hne) (room s _ (hf hne))).1 hf
  | case6 s segments hne cause t hw hr =>
    obtain ⟨-, ⟨n, hn⟩ | ⟨cause', hn, retried⟩⟩ := hs.write hw (hf hne) (room s _ (hf hne))
    · cases hn
    · cases hn
      exact absurd retried hr

theorem Willing.writeVectored {s : Sink} (hs : s.Willing) {segments : List Bytes} {expected : Nat}
    (he : segments.flatten.length = expected) :
    (s.writeVectored segments expected).1 = .ok () ∧
      (s.writeVectored segments expected).2.Willing := by
  have sum := (capacity_map_length segments).trans he
  simp only [Sink.writeVectored]
  rw [if_pos sum]
  exact hs.writeRest (advance segments 0) flatten_advance_ne_nil

theorem gone_write (s : Sink) (c : Call) (bytes : Bytes) : (s.write c bytes).2.gone = s.gone := by
  unfold write
  split
  · rfl
  · split <;> rfl

theorem gone_writeRest (s : Sink) (segments : List Bytes) :
    (s.writeRest segments).2.gone = s.gone := by
  have kept : ∀ {a : WriteAnswer} {s t : Sink} {segments : List Bytes},
      s.write (.spread (segments.map List.length)) segments.flatten = (a, t) → t.gone = s.gone :=
    fun hw => (congrArg (·.2.gone) hw).symm.trans (gone_write ..)
  fun_induction writeRest s segments with
  | case1 => rfl
  | case2 s segments hne t hw => exact kept hw
  | case3 s segments hne n t hw ha => exact kept hw
  | case4 s segments hne n t hw ha ih => exact ih.trans (kept hw)
  | case5 s segments hne cause t hw hr ih => exact ih.trans (kept hw)
  | case6 s segments hne cause t hw hr => exact kept hw

theorem gone_writeVectored (s : Sink) (segments : List Bytes) (expected : Nat) :
    (s.writeVectored segments expected).2.gone = s.gone := by
  simp only [writeVectored]
  split
  · exact gone_writeRest ..
  · rfl

theorem writeRest_of_gone {s : Sink} {segments : List Bytes} (h : s.gone = true)
    (hs : segments ≠ []) : (s.writeRest segments).1 = .error .brokenPipe := by
  have refused : ∀ {a : WriteAnswer} {t : Sink} {c : Call} {bytes : Bytes},
      s.write c bytes = (a, t) → a = .failed (.numbered 32) := by
    intro a t c bytes hw
    rw [write, if_pos h] at hw
    exact (congrArg Prod.fst hw).symm
  unfold writeRest
  rw [if_neg hs]
  split
  · cases refused ‹_›
  · cases refused ‹_›
  · cases refused ‹_›
    rfl

theorem writeVectored_ok {s t : Sink} {segments : List Bytes} {expected : Nat}
    (h : s.writeVectored segments expected = (.ok (), t)) :
    t.written = s.written ++ segments.flatten := by
  unfold writeVectored at h
  dsimp only at h
  split at h
  · have written := s.writeRest_ok (advance segments 0) (by rw [h])
    rwa [h, flatten_advance, List.drop_zero] at written
  · cases h

end Sink

/-- A willing stream takes an envelope whole, if its header announces its segments rightly. -/
theorem Envelope.Sized.send {m : Envelope} (h : m.Sized) {s : Sink} (hs : s.Willing) :
    (m.send s).1 = .ok () ∧ (m.send s).2.written = s.written ++ m.wire ∧ (m.send s).2.Willing := by
  have whole : m.segments.flatten.length = m.wireLength := h.length_wire
  obtain ⟨ok, willing⟩ := hs.writeVectored whole
  simp only [Envelope.send]
  rcases hw : s.writeVectored m.segments m.wireLength with ⟨result, t⟩
  rw [hw] at ok willing
  obtain rfl : result = .ok () := ok
  exact ⟨rfl, Sink.writeVectored_ok hw, willing⟩

theorem Envelope.advance_segments_ne_nil (m : Envelope) : Sink.advance m.segments 0 ≠ [] := by
  intro none
  have whole := Sink.flatten_advance m.segments 0
  rw [none, List.drop_zero] at whole
  exact m.wire_ne_nil whole.symm

namespace Connection

theorem send_eq (c : Connection) (m : Envelope) :
    (c.send m).2 = { c with outgoing := (c.send m).2.outgoing } := by
  simp only [send, writeVectored]
  cases c.ensureOpen <;> rfl

theorem send_ok {c : Connection} {m : Envelope} (h : (c.send m).1 = .ok ()) :
    (c.send m).2.outgoing.written = c.outgoing.written ++ m.wire := by
  simp only [send, writeVectored] at h ⊢
  cases ho : c.ensureOpen with
  | error e =>
    rw [ho] at h
    cases h
  | ok =>
    simp only [ho] at h ⊢
    rcases hw : c.outgoing.writeVectored m.segments m.wireLength with ⟨_ | _, t⟩
    · rw [hw] at h
      cases h
    · exact Sink.writeVectored_ok hw

/-- Whether somebody reads a connection does not depend on what is sent on it. -/
theorem gone_send (c : Connection) (m : Envelope) :
    (c.send m).2.outgoing.gone = c.outgoing.gone := by
  simp only [send, writeVectored]
  cases c.ensureOpen with
  | error => rfl
  | ok => exact Sink.gone_writeVectored ..

/-- A connection whose other end is gone breaks with the first envelope. -/
theorem send_of_gone {c : Connection} {m : Envelope} (sized : m.Sized) (ho : c.isOpen = true)
    (gone : c.outgoing.gone = true) : (c.send m).1 = .error (.transport .brokenPipe) := by
  have broken : (c.outgoing.writeVectored m.segments m.wireLength).1 = .error .brokenPipe := by
    have sum := (Sink.capacity_map_length m.segments).trans sized.length_wire
    rw [Sink.writeVectored, if_pos sum, Sink.writeRest_of_gone gone m.advance_segments_ne_nil]
  simp only [send, writeVectored, ensureOpen, ho, if_true, broken]
  rfl

theorem send_of_closed {c : Connection} (m : Envelope) (ho : c.isOpen = false) :
    c.send m = (.error (.transport (.closed c.name)), c) := by
  simp only [send, writeVectored, ensureOpen, ho, Bool.false_eq_true, if_false]
  rfl

/-- A willing stream takes an envelope whole or not at all. -/
theorem send_of_willing {c : Connection} (willing : c.outgoing.Willing) (m : Envelope) :
    (c.send m).2.outgoing.Willing ∧ (c.send m).2.outgoing.written =
      c.outgoing.written ++ if (c.send m).1.isOk then m.wire else [] := by
  cases ho : c.isOpen with
  | false =>
    rw [send_of_closed m ho]
    exact ⟨willing, (List.append_nil _).symm⟩
  | true =>
    by_cases sized : m.segments.flatten.length = m.wireLength
    · obtain ⟨ok, still⟩ := willing.writeVectored sized
      have sent : (c.send m).1 = .ok () := by
        simp only [send, writeVectored, ensureOpen, ho, if_true, ok]
        rfl
      refine ⟨?_, by rw [send_ok sent, sent]; rfl⟩
      simpa only [send, writeVectored, ensureOpen, ho, if_true] using still
    · have sum : ¬ capacity (m.segments.map List.length) = m.wireLength :=
        fun e => sized ((Sink.capacity_map_length m.segments).symm.trans e)
      have kept : ∃ e, c.outgoing.writeVectored m.segments m.wireLength = (.error e, c.outgoing) :=
        ⟨_, by rw [Sink.writeVectored, if_neg sum]⟩
      obtain ⟨e, kept⟩ := kept
      simp only [send, writeVectored, ensureOpen, ho, if_true, kept]
      exact ⟨willing, (List.append_nil _).symm⟩

theorem send_of_sized {c : Connection} {m : Envelope} (sized : m.Sized) (ho : c.isOpen = true)
    (willing : c.outgoing.Willing) : (c.send m).1 = .ok () := by
  have whole : m.segments.flatten.length = m.wireLength := sized.length_wire
  have ok := (willing.writeVectored whole).1
  simp only [send, writeVectored, ensureOpen, ho, if_true, ok]
  rfl

end Connection

end ModuleLink
