import ModuleLink.Proofs.EnvelopeRoundTrip
import ModuleLink.Proofs.ReplySearch

/-! # Every envelope is well formed

Whatever a module does to come by its envelopes, and whatever formatters it uses, the header of each
of them announces its segments exactly and says that they are packed. So sending one never fails for
its lengths, and decoding one never for its alignment. -/
namespace ModuleLink

/-- A call by which a module comes by an envelope, or changes one that it holds. Those that it holds
are counted from the oldest. -/
inductive EnvelopeCall
  | build (draft : Draft)
  | receive (stream : Source) (limits : Limits)
  | receiveWithReply (stream : Source) (limits : Limits) (buffer : ReplyBuffer)
  | setIntent (index : Nat) (intent : Int32)
  | clone (index : Nat)
  | replaceClass (index : Nat) (content : Content)

def EnvelopeCall.perform (held : List Envelope) : EnvelopeCall → List Envelope
  | build d => held ++ d.build.toOption.toList
  | receive s limits => held ++ (ModuleLink.receive s limits).1.toOption.toList
  | receiveWithReply s limits buffer =>
    held ++ (ModuleLink.receiveWithReply s limits buffer).1.toOption.toList
  | setIntent i intent => held.modify i (·.withIntent intent)
  | clone i => held ++ held[i]?.toList
  | replaceClass i content => held ++ (held[i]?.bind fun m => (m.replaceClass content).toOption).toList

theorem EnvelopeCall.sound_perform {held : List Envelope} (sound : ∀ m ∈ held, m.Sound)
    (call : EnvelopeCall) {m : Envelope} (hm : m ∈ call.perform held) : m.Sound := by
  have added : ∀ {gave : Option Envelope}, (∀ n, gave = some n → n.Sound) →
      m ∈ held ++ gave.toList → m.Sound := by
    intro gave given hm
    rcases List.mem_append.mp hm with hm | hm
    · exact sound m hm
    · exact given m (Option.mem_toList.mp hm)
  cases call with
  | build d => exact added (fun n hn => .of_build (mem_toOption_iff.mp hn)) hm
  | receive s limits =>
    exact added (fun n hn => .of_receive (Prod.ext (mem_toOption_iff.mp hn) rfl)) hm
  | receiveWithReply s limits buffer =>
    have same := (receiveWithReply_eq s limits buffer).1
    exact added (fun n hn =>
      .of_receive (Prod.ext (same.symm.trans (mem_toOption_iff.mp hn)) rfl)) hm
  | setIntent i intent =>
    obtain ⟨j, hj⟩ := List.mem_iff_getElem?.mp hm
    rw [perform, List.getElem?_modify] at hj
    obtain ⟨n, hn, rfl⟩ := Option.map_eq_some_iff.mp hj
    have before : n.Sound := sound n (List.mem_of_getElem? hn)
    split
    · exact before.withIntent intent
    · exact before
  | clone i => exact added (fun n hn => sound n (List.mem_of_getElem? hn)) hm
  | replaceClass i content =>
    refine added (fun n hn => ?_) hm
    obtain ⟨old, ho, hn⟩ := Option.bind_eq_some_iff.mp hn
    exact (sound old (List.mem_of_getElem? ho)).replaceClass (mem_toOption_iff.mp hn)

theorem EnvelopeCall.sound_after {held : List Envelope} (sound : ∀ m ∈ held, m.Sound)
    (calls : List EnvelopeCall) : ∀ m ∈ calls.foldl perform held, m.Sound := by
  induction calls generalizing held with
  | nil => exact sound
  | cons call calls ih => exact ih fun m hm => call.sound_perform sound hm

theorem Sink.writeRest_error {s : Sink} {segments : List Bytes} {e : TransportError}
    (h : (s.writeRest segments).1 = .error e) :
    e = .writeZero ∨ ∃ cause, e = writeFailure cause := by
  fun_induction writeRest s segments with
  | case1 => cases h
  | case2 => exact .inl (Except.error.inj h).symm
  | case3 => cases h
  | case4 _ _ _ _ _ _ _ ih => exact ih h
  | case5 _ _ _ _ _ _ _ ih => exact ih h
  | case6 _ _ _ cause => exact .inr ⟨cause, (Except.error.inj h).symm⟩

theorem Sink.writeFailure_ne (cause : SystemError) (expected actual : Nat) :
    writeFailure cause ≠ .lengthMismatch expected actual := by
  unfold writeFailure
  split <;> exact nofun

theorem mapError_transport_ne {r : Except TransportError Unit} {e : TransportError}
    (h : r ≠ .error e) : r.mapError FrameError.transport ≠ .error (.transport e) := by
  cases r with
  | ok => exact nofun
  | error e' => exact fun same => h (congrArg _ (FrameError.transport.inj (Except.error.inj same)))

namespace Envelope

variable {m : Envelope}

theorem Sized.writeVectored_ne (h : m.Sized) (s : Sink) (expected actual : Nat) :
    (s.writeVectored m.segments m.wireLength).1 ≠ .error (.lengthMismatch expected actual) := by
  have sum := (Sink.capacity_map_length m.segments).trans h.length_wire
  rw [Sink.writeVectored, if_pos sum]
  intro failed
  rcases Sink.writeRest_error failed with e | ⟨cause, e⟩
  · cases e
  · exact Sink.writeFailure_ne cause expected actual e.symm

theorem Sized.send_ne (h : m.Sized) (s : Sink) (expected actual : Nat) :
    (m.send s).1 ≠ .error (.transport (.lengthMismatch expected actual)) :=
  mapError_transport_ne (h.writeVectored_ne s expected actual)

theorem Sized.connection_send_ne (h : m.Sized) (c : Connection) (expected actual : Nat) :
    (c.send m).1 ≠ .error (.transport (.lengthMismatch expected actual)) := by
  refine mapError_transport_ne (r := (c.writeVectored m.segments m.wireLength).1) ?_
  have fits := h.writeVectored_ne c.outgoing expected actual
  simp only [Connection.writeVectored, Connection.ensureOpen]
  cases c.isOpen with
  | false =>
    intro closed
    cases closed
  | true => exact fits

end Envelope

theorem decodeSegment_ne {c : Classifier} (packed : c.alignment = .packed) (formatter : Formatter)
    (wire : Bytes) (order : ByteOrder) (code : UInt8) :
    decodeSegment formatter wire order c ≠ .error (.unsupportedAlignment code) := by
  unfold decodeSegment
  rw [Classifier.ensurePacked_of_packed packed]
  split
  · exact nofun
  · show (if formatter.flat ∧ order = .host then _ else _) ≠ _
    split
    · exact nofun
    · cases formatter.decode wire order <;> exact nofun

/-- Whatever calls a module made, and whatever formatters and streams they met: every envelope that it
holds announces its segments exactly and as packed, is never refused for its lengths when it is sent,
and never for its alignment when it is decoded. -/
theorem wellFormed_after (calls : List EnvelopeCall) :
    ∀ m ∈ calls.foldl EnvelopeCall.perform [],
      m.header.classTotal.toNat = m.classData.length ∧
      m.header.messageTotal.toNat = m.payload.length ∧
      m.classifier.alignment = .packed ∧
      (∀ expected actual,
        (∀ s : Sink, (m.send s).1 ≠ .error (.transport (.lengthMismatch expected actual))) ∧
        ∀ c : Connection,
          (c.send m).1 ≠ .error (.transport (.lengthMismatch expected actual))) ∧
      ∀ formatter code,
        m.decodePayload formatter ≠ .error (.unsupportedAlignment code) ∧
        m.decodeClass formatter ≠ .error (.unsupportedAlignment code) := by
  intro m held
  have sound : m.Sound := EnvelopeCall.sound_after (List.forall_mem_nil _) calls m held
  refine ⟨sound.classTotal, sound.messageTotal, sound.packed, fun expected actual => ?_,
    fun formatter code => ?_⟩
  · exact ⟨fun s => sound.send_ne s expected actual,
      fun c => sound.connection_send_ne c expected actual⟩
  · exact ⟨decodeSegment_ne sound.packed formatter _ _ code,
      decodeSegment_ne sound.packed formatter _ _ code⟩

/-- A formatter that fails its announcement is refused in a build and in a replacement; the other calls
give envelopes that are built, copied, marked, stripped and received. -/
def mixedCalls : List EnvelopeCall :=
  [.build lettered, .build { lettered with payload := some ⟨.miscounting, [1]⟩ }, .clone 0,
    .setIntent 0 9, .replaceClass 0 ⟨.miscounting, [1]⟩, .replaceClass 0 ⟨.raw, []⟩,
    .receive mixedFrames ⟨0, 2⟩, .receiveWithReply mixedFrames ⟨0, 2⟩ (.ofLength 0 1)]

theorem wellFormed_after_mixedCalls :
    mixedCalls.foldl EnvelopeCall.perform [] =
        [letteredEnvelope.withIntent 9, letteredEnvelope, strippedEnvelope,
          classified 0xf9000004 [3], classified 0xf9000004 [3]] ∧
      strippedEnvelope.header.classTotal.toNat = strippedEnvelope.classData.length ∧
      strippedEnvelope.header.messageTotal.toNat = strippedEnvelope.payload.length ∧
      (∀ s : Sink, (strippedEnvelope.send s).1 ≠ .error (.transport (.lengthMismatch 31 37))) ∧
      ∀ formatter, strippedEnvelope.decodePayload formatter ≠ .error (.unsupportedAlignment 1) := by
  have held : mixedCalls.foldl EnvelopeCall.perform [] =
      [letteredEnvelope.withIntent 9, letteredEnvelope, strippedEnvelope,
        classified 0xf9000004 [3], classified 0xf9000004 [3]] := by decide +kernel
  have among : strippedEnvelope ∈ mixedCalls.foldl EnvelopeCall.perform [] := by
    rw [held]
    decide
  obtain ⟨classTotal, messageTotal, -, sent, decoded⟩ := wellFormed_after mixedCalls _ among
  exact ⟨held, classTotal, messageTotal, (sent 31 37).1, fun formatter => (decoded formatter 1).1⟩

end ModuleLink
