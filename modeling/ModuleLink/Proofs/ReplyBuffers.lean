import Mathlib.Tactic.Common
import ModuleLink.Proofs.RouterEvents

/-! # What comes of a buffer for a reply

A wait offers the caller's buffer to every envelope that it reads. The first one with the buffer's
message reference and length takes it, whatever its intent is; an envelope that does not arrive
leaves it to its owner. So the buffer goes to the awaited reply unless other traffic under the same
reference fits it. -/
namespace ModuleLink

def ReplyBuffer.lend (b : ReplyBuffer) (m : Envelope) : ReplyBuffer :=
  if b.fits m.header then { b with room := none } else b

def Reception.arrived (r : Reception) : List Envelope :=
  match r.result with
  | .ok m => [m]
  | .error _ => []

namespace ReplyBuffer

/-- A buffer that was offered to several envelopes is filled exactly if it fits one of them. -/
theorem isFilled_foldl_lend_iff (b : ReplyBuffer) (ms : List Envelope) :
    (ms.foldl lend b).isFilled ↔ b.isFilled ∨ ∃ m ∈ ms, b.fits m.header := by
  induction ms generalizing b with
  | nil => simp only [List.foldl_nil, List.not_mem_nil, false_and, exists_false, or_false]
  | cons m ms ih =>
    rw [List.foldl_cons, ih]
    simp only [List.mem_cons, exists_eq_or_imp]
    by_cases taken : b.fits m.header = true
    · rw [lend, if_pos taken]
      exact iff_of_true (.inl rfl) (.inr (.inl taken))
    · rw [lend, if_neg taken]
      exact or_congr_right (or_iff_right taken).symm

theorem fits_ofLength_iff {messageRef : Int32} {length : Nat} {m : Envelope} (h : m.Sized) :
    (ofLength messageRef length).fits m.header ↔
      m.messageRef = messageRef ∧ m.payload.length = length := by
  simp only [fits, ofLength, h.messageTotal, Option.some.injEq, decide_eq_true_eq]
  exact and_congr_right fun _ => eq_comm

/-- The buffer went to the awaited reply if that was read and fits, and stayed with its owner
otherwise. -/
def ForReply (b : ReplyBuffer) (messageRef : Int32) (length : Nat) (read : List Envelope)
    (result : Except PeerError Envelope) : Prop :=
  b.isFilled ↔ ∃ m ∈ read, isReplyTo messageRef m ∧ m.payload.length = length ∧
    result = finishReply m

end ReplyBuffer

theorem receiveSegments_header {s t : Source} {h : Header} {room : Nat} {m : Envelope}
    (hr : receiveSegments s h room = (.ok m, t)) : m.header = h := by
  simp only [receiveSegments] at hr
  split at hr
  · cases hr
  · cases hp : (Classifier.unpack h.classifier).ensurePacked with
    | error e =>
      rw [hp] at hr
      cases hr
    | ok =>
      rw [hp] at hr
      obtain ⟨e, -⟩ := Prod.mk.inj hr
      rw [← Except.ok.inj e]

/-- An attempt lends the buffer to the envelope that arrives. -/
theorem receiveWithReply_buffer (s : Source) (limits : Limits) (b : ReplyBuffer) :
    (receiveWithReply s limits b).2.1 =
      match (receiveWithReply s limits b).1 with
      | .ok m => b.lend m
      | .error _ => b := by
  simp only [receiveWithReply]
  split
  · rfl
  · split
    · rfl
    · split
      · exact b.takeBack_lendTo _
      · rename_i h m t' hr
        simp only [ReplyBuffer.lend, receiveSegments_header hr, ReplyBuffer.lendTo]
        split <;> rfl

namespace Connection

theorem receiveReply_buffer (c : Connection) (limits : Limits) (b : ReplyBuffer) :
    (c.receiveReply limits (some b)).2.1 =
      some ((c.receiveReply limits (some b)).1.arrived.foldl ReplyBuffer.lend b) := by
  simp only [receiveReply, Reception.arrived, receiveWithReply_buffer]
  cases (receiveWithReply c.incoming limits b).1 <;> rfl

def Search.read (s : Search) : List Envelope := s.passed ++ s.last.arrived

/-- A search offers the buffer to one envelope after the other. -/
theorem search_buffer (c : Connection) (limits : Limits) (messageRef : Int32) (b : ReplyBuffer) :
    (c.search limits messageRef (some b)).buffer =
      some ((c.search limits messageRef (some b)).read.foldl ReplyBuffer.lend b) := by
  induction hw : c.incoming.work using Nat.strongRecOn generalizing c b with
  | _ work ih =>
    have offered := c.receiveReply_buffer limits b
    rcases hr : c.receiveReply limits (some b) with ⟨r, buffer', d⟩
    rw [hr] at offered
    dsimp only at offered
    subst offered
    rw [search_eq c limits messageRef (some b) hr]
    cases hm : r.result with
    | error e => rfl
    | ok m =>
      dsimp only
      split
      · rfl
      · have first : r.arrived = [m] := by rw [Reception.arrived, hm]
        have rest := ih d.incoming.work (hw ▸ receiveReply_work_lt hr hm) d
          (r.arrived.foldl ReplyBuffer.lend b) rfl
        rw [rest, first]
        rfl

theorem Search.Of.read_acceptable {s : Search} {c : Connection} {limits : Limits}
    {messageRef : Int32} {taken : Bytes} (h : s.Of c limits messageRef taken) :
    ∀ m ∈ s.read, m.Acceptable limits := by
  intro m hm
  rcases List.mem_append.mp hm with hm | hm
  · exact h.acceptable m hm
  · have attempt := h.attempt
    simp only [Reception.arrived] at hm
    cases hr : s.last.result with
    | error e =>
      rw [hr] at hm
      cases hm
    | ok n =>
      rw [hr] at hm attempt
      obtain rfl := List.mem_singleton.mp hm
      cases attempt with
      | accepted acceptable => exact acceptable

/-- What a search took whole stands at the front of the stream, and after it what its last attempt
took of an envelope that it could not accept. -/
theorem Search.Of.read_prefix {s : Search} {c : Connection} {limits : Limits} {messageRef : Int32}
    {taken : Bytes} (h : s.Of c limits messageRef taken) :
    ∃ cut, c.incoming.Yields (s.read.flatMap Envelope.wire ++ cut) s.connection.incoming := by
  have attempt := h.attempt
  have yields := h.yields
  simp only [Search.read, Reception.arrived, List.flatMap_append]
  cases hr : s.last.result with
  | error e => exact ⟨taken, by simpa using yields⟩
  | ok m =>
    rw [hr] at attempt
    cases attempt with
    | accepted => exact ⟨[], by simpa using yields⟩

/-- The awaited reply ends the search that reads it. -/
theorem Search.Of.result_of_reply {s : Search} {c : Connection} {limits : Limits}
    {messageRef : Int32} {taken : Bytes} (h : s.Of c limits messageRef taken) {m : Envelope}
    (hm : m ∈ s.read) (reply : isReplyTo messageRef m) : s.last.result = .ok m := by
  rcases List.mem_append.mp hm with hm | hm
  · exact absurd (reply.symm.trans (h.others m hm)) nofun
  · simp only [Reception.arrived] at hm
    cases hr : s.last.result with
    | error e =>
      rw [hr] at hm
      cases hm
    | ok n =>
      rw [hr] at hm
      rw [List.mem_singleton.mp hm]

end Connection

namespace ModuleContext

def readBy (x : ModuleContext) (messageRef : Int32) (timeout : Option Span)
    (buffer : Option ReplyBuffer) : List Envelope :=
  match (x.takePending messageRef).1, x.admission timeout with
  | none, .ok (_, c) => (c.search x.settings.limits messageRef buffer).read
  | _, _ => []

/-- A wait offers its buffer to all that it reads, which stands at the front of the stream, and ends
with the awaited reply if it reads that. -/
theorem waitInto_buffered (x : ModuleContext) (messageRef : Int32) (timeout : Option Span)
    (b : ReplyBuffer) :
    let read := x.readBy messageRef timeout (some b)
    let waited := (x.waitInto messageRef timeout (some b)).1
    waited.buffer = some (read.foldl ReplyBuffer.lend b) ∧
      (∀ m ∈ read, m.Acceptable x.settings.limits) ∧
      (∀ m ∈ read, isReplyTo messageRef m → waited.result = finishReply m) ∧
      (read ≠ [] → ∃ router c cut left, x.router = some router ∧ x.connection? router = some c ∧
        c.incoming.unread = read.flatMap Envelope.wire ++ cut ++ left) := by
  intro read waited
  simp only [read, waited, readBy]
  cases x.waitInto_ends messageRef timeout (some b) with
  | kept before m after split others found pending ends =>
    rw [ends, pending]
    exact ⟨rfl, List.forall_mem_nil _, List.forall_mem_nil _, fun some => absurd rfl some⟩
  | refused e missing pending refusal ends =>
    rw [ends, pending, refusal]
    exact ⟨rfl, List.forall_mem_nil _, List.forall_mem_nil _, fun some => absurd rfl some⟩
  | searched router c taken missing pending admitted of ends =>
    obtain ⟨hr, hc⟩ := admission_ok admitted
    rw [ends, pending, admitted, readReply_eq x router c messageRef timeout (some b) rfl]
    refine ⟨c.search_buffer x.settings.limits messageRef b, of.read_acceptable, ?_, ?_⟩
    · intro m hm reply
      rw [of.result_of_reply hm reply]
    · intro _
      obtain ⟨cut, yields⟩ := of.read_prefix
      exact ⟨router, c, cut, _, hr, hc, yields.unread⟩

/-- A new buffer that a wait was given is filled exactly if an envelope that the wait read has its
message reference and its length. That is for the awaited reply and in no other case, exactly if
other traffic fits the buffer only along with the reply. -/
theorem buffer_forReply_iff (x : ModuleContext) (messageRef : Int32) (timeout : Option Span)
    (length : Nat) :
    let buffer := ReplyBuffer.ofLength messageRef length
    let read := x.readBy messageRef timeout (some buffer)
    let waited := (x.waitInto messageRef timeout (some buffer)).1
    (∀ m ∈ read, m.Acceptable x.settings.limits) ∧
    (read ≠ [] → ∃ router c cut left, x.router = some router ∧ x.connection? router = some c ∧
      c.incoming.unread = read.flatMap Envelope.wire ++ cut ++ left) ∧
    ∃ b, waited.buffer = some b ∧
      (b.isFilled ↔ ∃ m ∈ read, m.messageRef = messageRef ∧ m.payload.length = length) ∧
      (b.ForReply messageRef length read waited.result ↔
        ((∃ m ∈ read, m.intent ≠ queryReplyIntent ∧ m.messageRef = messageRef ∧
            m.payload.length = length) →
          ∃ m ∈ read, isReplyTo messageRef m ∧ m.payload.length = length)) := by
  intro buffer read waited
  obtain ⟨offered, acceptable, ends, stream⟩ :=
    x.waitInto_buffered messageRef timeout (.ofLength messageRef length)
  have filled : (read.foldl ReplyBuffer.lend buffer).isFilled ↔
      ∃ m ∈ read, m.messageRef = messageRef ∧ m.payload.length = length := by
    have empty : ¬ buffer.isFilled := nofun
    rw [ReplyBuffer.isFilled_foldl_lend_iff, or_iff_right empty]
    refine exists_congr fun m => and_congr_right fun hm => ?_
    exact ReplyBuffer.fits_ofLength_iff (acceptable m hm).toSized
  have either : (∃ m ∈ read, m.messageRef = messageRef ∧ m.payload.length = length) ↔
      (∃ m ∈ read, isReplyTo messageRef m ∧ m.payload.length = length) ∨
        ∃ m ∈ read, m.intent ≠ queryReplyIntent ∧ m.messageRef = messageRef ∧
          m.payload.length = length := by
    simp only [isReplyTo_iff]
    constructor
    · rintro ⟨m, hm, ref, fits⟩
      by_cases intent : m.intent = queryReplyIntent
      · exact .inl ⟨m, hm, ⟨intent, ref⟩, fits⟩
      · exact .inr ⟨m, hm, intent, ref, fits⟩
    · rintro (⟨m, hm, ⟨-, ref⟩, fits⟩ | ⟨m, hm, -, ref, fits⟩)
      · exact ⟨m, hm, ref, fits⟩
      · exact ⟨m, hm, ref, fits⟩
  have reply : (∃ m ∈ read, isReplyTo messageRef m ∧ m.payload.length = length ∧
        waited.result = finishReply m) ↔
      ∃ m ∈ read, isReplyTo messageRef m ∧ m.payload.length = length := by
    refine exists_congr fun m => and_congr_right fun hm => and_congr_right fun isReply => ?_
    exact and_iff_left (ends m hm isReply)
  refine ⟨acceptable, stream, _, offered, filled, ?_⟩
  rw [ReplyBuffer.ForReply, filled, reply, either]
  exact or_iff_left_iff_imp

def delayedReply : List Envelope :=
  [.plain 3 1 [1], .plain queryReplyIntent 2 [1, 2, 3, 4], .plain queryReplyIntent 1 [5, 6, 7, 8]]

theorem buffer_forReply_iff_delayedReply :
    let x := (quiet.apply 0 (.arrives (delayedReply.flatMap Envelope.wire))).2
    let buffer := ReplyBuffer.ofLength 1 4
    let waited := (x.waitInto 1 none (some buffer)).1
    x.readBy 1 none (some buffer) = delayedReply ∧
      ∃ b, waited.buffer = some b ∧ b.isFilled ∧ b.ForReply 1 4 delayedReply waited.result := by
  intro x buffer waited
  obtain ⟨-, -, b, kept, -, forReply⟩ := buffer_forReply_iff x 1 none 4
  have read : x.readBy 1 none (some buffer) = delayedReply := by decide +kernel
  have gone : waited.buffer = some ⟨1, none⟩ := by decide +kernel
  obtain rfl : b = ⟨1, none⟩ := Option.some.inj (kept.symm.trans gone)
  rw [read] at forReply
  refine ⟨read, _, gone, rfl, forReply.mpr ?_⟩
  intro _
  exact ⟨.plain queryReplyIntent 1 [5, 6, 7, 8], by decide, by decide, rfl⟩

/-- Four bytes under the reference of the awaited reply that are no reply. -/
def strayEnvelope : Envelope := .plain 3 1 [1, 2, 3, 4]

/-- The module waits for a reply of four bytes and reads other traffic under its reference: there is
no reply, and the buffer is gone. -/
theorem buffer_not_forReply_strayEnvelope :
    let x := (quiet.apply 0 (.arrives strayEnvelope.wire)).2
    let timeout := some (Span.ofMillis 50)
    let buffer := ReplyBuffer.ofLength 1 4
    let waited := (x.waitInto 1 timeout (some buffer)).1
    waited.result = .error (.timeout (Span.ofMillis 50)) ∧
      ∃ b, waited.buffer = some b ∧ b.isFilled ∧
        ¬ b.ForReply 1 4 (x.readBy 1 timeout (some buffer)) waited.result := by
  intro x timeout buffer waited
  have late : waited.result = .error (.timeout (Span.ofMillis 50)) := by decide +kernel
  have gone : waited.buffer = some ⟨1, none⟩ := by decide +kernel
  refine ⟨late, _, gone, rfl, ?_⟩
  intro forReply
  obtain ⟨m, -, -, -, finished⟩ := forReply.mp rfl
  have none : finishReply m = .error (.timeout (Span.ofMillis 50)) := finished.symm.trans late
  simp only [finishReply] at none
  split at none
  · cases none
  · cases none

end ModuleContext

end ModuleLink
