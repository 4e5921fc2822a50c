import ModuleLink.Proofs.ReplyBuffers

/-! # Receiving into a buffer that is offered again and again

Receiving with a buffer is receiving: the same envelope or error, and the same bytes off the stream.
The buffer goes to the first envelope that it was made for. Until then its owner has it at its full
length, however many attempts failed and wherever they stopped. -/
namespace ModuleLink

def brought (attempt : Source × Limits) : List Envelope :=
  match (receive attempt.1 attempt.2).1 with
  | .ok m => [m]
  | .error _ => []

theorem mem_brought {attempt : Source × Limits} {m : Envelope} :
    m ∈ brought attempt ↔ (receive attempt.1 attempt.2).1 = .ok m := by
  unfold brought
  cases (receive attempt.1 attempt.2).1 with
  | ok n => simp only [List.mem_singleton, Except.ok.injEq, eq_comm]
  | error e => simp only [List.not_mem_nil, reduceCtorEq]

theorem sized_of_receive {s : Source} {limits : Limits} {m : Envelope}
    (h : (receive s limits).1 = .ok m) : m.Sized := by
  rcases hr : receive s limits with ⟨result, t⟩
  obtain ⟨taken, -, attempt⟩ := receive_attempt hr
  rw [hr] at h
  obtain rfl : result = .ok m := h
  cases attempt with
  | accepted acceptable => exact acceptable.toSized

namespace ReplyBuffer

/-- The owner still has the buffer, which was made for an envelope with this message reference and
this much payload. -/
structure Awaits (b : ReplyBuffer) (m : Envelope) : Prop where
  messageRef : m.messageRef = b.messageRef
  room : b.room = some m.payload.length

/-- What several attempts to receive leave of a buffer that is offered to each of them. -/
def offered (b : ReplyBuffer) (attempts : List (Source × Limits)) : ReplyBuffer :=
  attempts.foldl (fun kept attempt => (receiveWithReply attempt.1 attempt.2 kept).2.1) b

theorem fits_iff_awaits (b : ReplyBuffer) {m : Envelope} (h : m.Sized) :
    b.fits m.header ↔ b.Awaits m := by
  simp only [fits, h.messageTotal, decide_eq_true_eq]
  exact ⟨fun h => ⟨h.1, h.2⟩, fun h => ⟨h.messageRef, h.room⟩⟩

theorem offered_eq (b : ReplyBuffer) (attempts : List (Source × Limits)) :
    b.offered attempts = (attempts.flatMap brought).foldl lend b := by
  induction attempts generalizing b with
  | nil => rfl
  | cons attempt attempts ih =>
    have step : (receiveWithReply attempt.1 attempt.2 b).2.1 = (brought attempt).foldl lend b := by
      rw [receiveWithReply_buffer, (receiveWithReply_eq attempt.1 attempt.2 b).1, brought]
      cases (receive attempt.1 attempt.2).1 <;> rfl
    rw [List.flatMap_cons, List.foldl_append, ← step]
    exact ih _

/-- The buffer is gone exactly if one of the attempts brought what it was made for. -/
theorem isFilled_offered_iff (b : ReplyBuffer) (attempts : List (Source × Limits)) :
    (b.offered attempts).isFilled ↔
      b.isFilled ∨ ∃ attempt ∈ attempts, ∃ m,
        (receive attempt.1 attempt.2).1 = .ok m ∧ b.Awaits m := by
  rw [offered_eq, isFilled_foldl_lend_iff]
  refine or_congr_right ⟨?_, ?_⟩
  · rintro ⟨m, hm, fits⟩
    obtain ⟨attempt, ha, hm⟩ := List.mem_flatMap.mp hm
    have received := mem_brought.mp hm
    exact ⟨attempt, ha, m, received, (b.fits_iff_awaits (sized_of_receive received)).mp fits⟩
  · rintro ⟨attempt, ha, m, received, awaits⟩
    exact ⟨m, List.mem_flatMap.mpr ⟨attempt, ha, mem_brought.mpr received⟩,
      (b.fits_iff_awaits (sized_of_receive received)).mpr awaits⟩

theorem foldl_lend_of_not_isFilled (b : ReplyBuffer) (ms : List Envelope)
    (kept : ¬ (ms.foldl lend b).isFilled) : ms.foldl lend b = b := by
  induction ms with
  | nil => rfl
  | cons m ms ih =>
    have refused : ¬ b.fits m.header := by
      intro fits
      exact kept ((b.isFilled_foldl_lend_iff (m :: ms)).mpr
        (.inr ⟨m, List.mem_cons_self .., fits⟩))
    rw [List.foldl_cons, lend, if_neg refused] at kept ⊢
    exact ih kept

end ReplyBuffer

/-- Receiving with a buffer that was offered before is receiving. The buffer is filled afterwards
exactly if it was filled before or was made for the envelope that arrived. After an error it is what
it was before, so that of all further attempts the first that brings such an envelope fills it; and
as long as it is not filled, it is as it was at first. -/
theorem receiveWithReply_agrees (b : ReplyBuffer) (earlier : List (Source × Limits)) (s : Source)
    (limits : Limits) :
    let before := b.offered earlier
    let received := receiveWithReply s limits before
    received.1 = (receive s limits).1 ∧ received.2.2 = (receive s limits).2 ∧
      (received.2.1.isFilled ↔
        before.isFilled ∨ ∃ m, received.1 = .ok m ∧ before.Awaits m) ∧
      (∀ e, received.1 = .error e → received.2.1 = before ∧
        ∀ later, (received.2.1.offered later).isFilled ↔ before.isFilled ∨
          ∃ attempt ∈ later, ∃ m, (receive attempt.1 attempt.2).1 = .ok m ∧ before.Awaits m) ∧
      (before.isFilled ↔ b.isFilled ∨
        ∃ attempt ∈ earlier, ∃ m, (receive attempt.1 attempt.2).1 = .ok m ∧ b.Awaits m) ∧
      (¬ received.2.1.isFilled → received.2.1 = b) := by
  intro before received
  obtain ⟨result, stream⟩ := receiveWithReply_eq s limits before
  have once : received.2.1 = before.offered [(s, limits)] := rfl
  have filled := before.isFilled_offered_iff [(s, limits)]
  have all : received.2.1 = b.offered (earlier ++ [(s, limits)]) := by
    rw [once, ReplyBuffer.offered, ReplyBuffer.offered, List.foldl_append]
    rfl
  refine ⟨result, stream, ?_, ?_, b.isFilled_offered_iff earlier, ?_⟩
  · rw [once, filled, show received.1 = (receive s limits).1 from result]
    simp only [List.mem_singleton, exists_eq_left]
  · intro e failed
    have kept : received.2.1 = before := by
      have buffer := receiveWithReply_buffer s limits before
      rwa [show (receiveWithReply s limits before).1 = .error e from failed] at buffer
    rw [kept]
    exact ⟨rfl, before.isFilled_offered_iff⟩
  · rw [all, ReplyBuffer.offered_eq]
    exact b.foldl_lend_of_not_isFilled _

/-- The stream ends inside the awaited reply, which comes whole over another one. -/
example :
    let reply := Envelope.plain queryReplyIntent 1 [5, 6, 7, 8]
    let attempts := [reply.wire.dropLast, reply.wire].map fun unread => ({ unread }, {})
    let buffer := ReplyBuffer.ofLength 1 4
    buffer.offered (attempts.take 1) = buffer ∧ (buffer.offered attempts).isFilled := by
  decide +kernel

end ModuleLink
