import ModuleLink.ByteSinks
import ModuleLink.ByteSources
import ModuleLink.Envelopes

/-! # Envelopes on a stream

An envelope is sent with one gathered write and received as a header and then both segments at
once. A body is read before it is refused for its alignment, so the stream stands at the next
envelope afterwards. -/
namespace ModuleLink

/-- The largest segments that a receiver takes. -/
structure Limits where
  classData : Nat := 16777216
  payload : Nat := 16777216
  deriving DecidableEq, Repr

/-- A caller's storage for the payload of an awaited reply. -/
structure ReplyBuffer where
  messageRef : Int32
  /-- The length of the buffer while its owner still has it. -/
  room : Option Nat
  deriving DecidableEq, Repr

namespace ReplyBuffer

def ofLength (messageRef : Int32) (length : Nat) : ReplyBuffer := ⟨messageRef, some length⟩

def isFilled (b : ReplyBuffer) : Bool := b.room.isNone

/-- The buffer is lent to the reply that it was made for, if the payload fits exactly. -/
def fits (b : ReplyBuffer) (h : Header) : Bool :=
  h.messageRef = b.messageRef ∧ b.room = some h.messageTotal.toNat

/-- What is lent to the payload behind a header, and what the owner has meanwhile. -/
def lendTo (b : ReplyBuffer) (h : Header) : Option Nat × ReplyBuffer :=
  if b.fits h then (b.room, { b with room := none }) else (none, b)

/-- The owner has back what was lent. -/
def takeBack (b : ReplyBuffer) : Option Nat → ReplyBuffer
  | some length => { b with room := some length }
  | none => b

/-- A buffer that is lent is as long as the payload. -/
theorem lendTo_room (b : ReplyBuffer) (h : Header) :
    (b.lendTo h).1.getD h.messageTotal.toNat = h.messageTotal.toNat := by
  unfold lendTo
  split
  · rename_i fits
    simp only [ReplyBuffer.fits, decide_eq_true_eq] at fits
    rw [fits.2]
    rfl
  · rfl

theorem takeBack_lendTo (b : ReplyBuffer) (h : Header) :
    (b.lendTo h).2.takeBack (b.lendTo h).1 = b := by
  unfold lendTo
  split
  · rename_i fits
    simp only [ReplyBuffer.fits, decide_eq_true_eq] at fits
    obtain ⟨messageRef, room⟩ := b
    obtain rfl : room = some h.messageTotal.toNat := fits.2
    rfl
  · rfl

end ReplyBuffer

def Envelope.send (m : Envelope) (s : Sink) : Except FrameError Unit × Sink :=
  let (result, t) := s.writeVectored m.segments m.wireLength
  (result.mapError .transport, t)

def receiveHeader (s : Source) : Except FrameError Header × Source :=
  let (filled, t) := s.readExact Header.size
  match filled.result with
  | .error e => (.error (.transport e), t)
  | .ok () => (.ok (.decode filled.got), t)

/-- The class segment is held against its limit before the payload. -/
def Header.check (h : Header) (limits : Limits) : Except FrameError Unit := do
  checkSegment .classData h.classTotal.toNat limits.classData
  checkSegment .payload h.messageTotal.toNat limits.payload

/-- Reads the segments behind a header, the payload into a buffer of this length. -/
def receiveSegments (s : Source) (h : Header) (room : Nat) : Except FrameError Envelope × Source :=
  let (filled, t) := s.readScattered h.classTotal.toNat room
  match filled.result with
  | .error e => (.error (.transport e), t)
  | .ok () =>
    let (classData, payload) := filled.got.splitAt h.classTotal.toNat
    ((Classifier.unpack h.classifier).ensurePacked.map fun _ => ⟨h, classData, payload⟩, t)

def receiveBody (s : Source) (h : Header) : Except FrameError Envelope × Source :=
  receiveSegments s h h.messageTotal.toNat

/-- Reads one complete envelope. -/
def receive (s : Source) (limits : Limits) : Except FrameError Envelope × Source :=
  match receiveHeader s with
  | (.error e, t) => (.error e, t)
  | (.ok h, t) =>
    match h.check limits with
    | .error e => (.error e, t)
    | .ok () => receiveBody t h

theorem receiveSegments_work_le (s : Source) (h : Header) (room : Nat) :
    (receiveSegments s h room).2.work ≤ s.work := by
  have := s.readRestScattered_work_le (advance [h.classTotal.toNat, room] 0)
    (h.classTotal.toNat + room) []
  unfold receiveSegments Source.readScattered
  generalize s.readRestScattered _ _ _ = r at this ⊢
  obtain ⟨filled, t⟩ := r
  dsimp only at this ⊢
  split <;> exact this

theorem receiveHeader_work_lt {s t : Source} {h : Header} (hr : receiveHeader s = (.ok h, t)) :
    t.work < s.work := by
  unfold receiveHeader at hr
  split at hr
  rename_i filled u hu
  split at hr
  · simp at hr
  · rename_i hf
    obtain ⟨-, rfl⟩ := Prod.mk.inj hr
    exact Source.readRest_work_lt (by simp [Header.size]) hu hf

/-- An envelope that was received is no longer to be read. -/
theorem receive_work_lt {s t : Source} {limits : Limits} {m : Envelope}
    (h : receive s limits = (.ok m, t)) : t.work < s.work := by
  unfold receive at h
  split at h
  · simp at h
  · rename_i header u hu
    split at h
    · simp at h
    · rw [receiveBody] at h
      have := receiveSegments_work_le u header header.messageTotal.toNat
      rw [h] at this
      exact Nat.lt_of_le_of_lt this (receiveHeader_work_lt hu)

/-- Reads one complete envelope, putting the payload into the caller's buffer if it fits. The
caller has its buffer back when the envelope does not arrive. -/
def receiveWithReply (s : Source) (limits : Limits) (buffer : ReplyBuffer) :
    Except FrameError Envelope × ReplyBuffer × Source :=
  match receiveHeader s with
  | (.error e, t) => (.error e, buffer, t)
  | (.ok h, t) =>
    match h.check limits with
    | .error e => (.error e, buffer, t)
    | .ok () =>
      let (lent, kept) := buffer.lendTo h
      match receiveSegments t h (lent.getD h.messageTotal.toNat) with
      | (.error e, t) => (.error e, kept.takeBack lent, t)
      | (.ok m, t) => (.ok m, kept, t)

theorem receiveWithReply_work_lt {s t : Source} {limits : Limits} {b c : ReplyBuffer}
    {m : Envelope} (h : receiveWithReply s limits b = (.ok m, c, t)) : t.work < s.work := by
  unfold receiveWithReply at h
  split at h
  · simp at h
  · rename_i header u hu
    split at h
    · simp at h
    · dsimp only at h
      split at h
      · simp at h
      · rename_i n v hv
        have := receiveSegments_work_le u header ((b.lendTo header).1.getD header.messageTotal.toNat)
        rw [hv] at this
        obtain ⟨-, hp⟩ := Prod.mk.inj h
        obtain ⟨-, rfl⟩ := Prod.mk.inj hp
        exact Nat.lt_of_le_of_lt this (receiveHeader_work_lt hu)

end ModuleLink
