import ModuleLink.Proofs.RouterEvents

/-! # The mail of a module

The envelopes that reached a module wait in three places: on the router connection, among the
replies that were set aside, or among the other traffic that was. These are the moves between them
that waits and other events may make. No move loses an envelope or doubles it. -/
namespace ModuleLink

structure Mail where
  unread : List Envelope := []
  pending : List Envelope := []
  inbound : List (ConnectionId × Envelope) := []

inductive RouterOutcome
  | arrived (m : Envelope)
  | lost (m : Envelope)
  | hungUp
  | answered (m : Envelope)
  | ended (e : PeerError)
  | took (first : Option (ConnectionId × Envelope))

namespace RouterOutcome

def answer : RouterOutcome → RouterAnswer
  | arrived _ => .delivered true
  | lost _ => .delivered false
  | hungUp => .hungUp
  | answered m => .waited (finishReply m)
  | ended e => .waited (.error e)
  | took first => .took first

def arrivals : RouterOutcome → List Envelope
  | arrived m => [m]
  | _ => []

def deliveries : RouterOutcome → List Envelope
  | answered m => [m]
  | took first => first.toList.map Prod.snd
  | _ => []

end RouterOutcome

namespace Mail

def all (b : Mail) : List Envelope := b.pending ++ b.unread ++ b.inbound.map Prod.snd

/-- The mail once some envelopes were read and set aside; the rest is still unread. -/
def setAside (router : ConnectionId) (b : Mail) (read rest : List Envelope) : Mail where
  unread := rest
  pending := b.pending ++ replies read
  inbound := b.inbound ++ (otherTraffic read).map (router, ·)

/-- A wait takes the first reply under its reference among those set aside; else it reads up to
that reply, or ends after some envelope before it. -/
inductive Waits (router : ConnectionId) (messageRef : Int32) (b : Mail) :
    Option Envelope → Mail → Prop
  | kept {before after : List Envelope} {m : Envelope} (split : b.pending = before ++ m :: after)
      (others : ∀ p ∈ before, isReplyTo messageRef p = false) (reply : isReplyTo messageRef m) :
      Waits router messageRef b (some m) { b with pending := before ++ after }
  | arrived {read rest : List Envelope} {m : Envelope}
      (notKept : ∀ p ∈ b.pending, isReplyTo messageRef p = false)
      (split : b.unread = read ++ m :: rest) (others : ∀ p ∈ read, isReplyTo messageRef p = false)
      (reply : isReplyTo messageRef m) :
      Waits router messageRef b (some m) (b.setAside router read rest)
  | ended {read rest : List Envelope} (notKept : ∀ p ∈ b.pending, isReplyTo messageRef p = false)
      (split : b.unread = read ++ rest) (others : ∀ p ∈ read, isReplyTo messageRef p = false) :
      Waits router messageRef b none (b.setAside router read rest)

inductive Step (router : ConnectionId) : Mail → RouterEvent → RouterOutcome → Mail → Prop
  | arrives {b : Mail} (m : Envelope) :
      Step router b (.arrives m.wire) (.arrived m) { b with unread := b.unread ++ [m] }
  | lost {b : Mail} (m : Envelope) : Step router b (.arrives m.wire) (.lost m) b
  | hangsUp {b : Mail} : Step router b .hangsUp .hungUp b
  | answered {b b' : Mail} {messageRef : Int32} {timeout : Option Span}
      {buffer : Option ReplyBuffer} {m : Envelope} (h : b.Waits router messageRef (some m) b') :
      Step router b (.waits messageRef timeout buffer) (.answered m) b'
  | ended {b b' : Mail} {messageRef : Int32} {timeout : Option Span} {buffer : Option ReplyBuffer}
      {e : PeerError} (h : b.Waits router messageRef none b') (he : e ≠ .nullReply) :
      Step router b (.waits messageRef timeout buffer) (.ended e) b'
  | takes {b : Mail} {first : ConnectionId × Envelope} {rest : List (ConnectionId × Envelope)}
      (h : b.inbound = first :: rest) :
      Step router b .takesInbound (.took (some first)) { b with inbound := rest }
  | takesNothing {b : Mail} (h : b.inbound = []) : Step router b .takesInbound (.took none) b

inductive Run (router : ConnectionId) :
    Mail → List RouterEvent → List RouterOutcome → Mail → Prop
  | nil {b : Mail} : Run router b [] [] b
  | cons {b c d : Mail} {event : RouterEvent} {events : List RouterEvent} {outcome : RouterOutcome}
      {outcomes : List RouterOutcome} (step : Step router b event outcome c)
      (tail : Run router c events outcomes d) :
      Run router b (event :: events) (outcome :: outcomes) d

private theorem replies_append_otherTraffic_perm (ms : List Envelope) :
    (replies ms ++ otherTraffic ms).Perm ms := by
  have h := List.filter_append_perm (fun m : Envelope => decide (m.intent = queryReplyIntent)) ms
  simpa only [replies, otherTraffic, decide_not] using h

/-- Setting aside moves envelopes and keeps them all. -/
theorem setAside_perm (router : ConnectionId) (b : Mail) {read rest : List Envelope}
    {lead : List Envelope} (split : b.unread = read ++ lead ++ rest) :
    b.all.Perm ((b.setAside router read rest).all ++ lead) := by
  have key := replies_append_otherTraffic_perm read
  have tags : ((otherTraffic read).map (router, ·)).map Prod.snd = otherTraffic read := by
    simp [Function.comp_def]
  simp only [all, setAside, List.map_append, tags, split]
  rw [List.perm_iff_count] at key ⊢
  intro m
  have := key m
  simp only [List.count_append] at this ⊢
  omega

private theorem filter_replies (r : Int32) (ms : List Envelope) :
    (replies ms).filter (isReplyTo r) = ms.filter (isReplyTo r) := by
  rw [replies, List.filter_filter]
  refine List.filter_congr fun m _ => ?_
  by_cases hm : m.intent = queryReplyIntent <;> simp [isReplyTo, hm]

/-- What stands before the first reply under a reference keeps its place if this one goes first. -/
private theorem filter_first {messageRef : Int32} {before : List Envelope} {m : Envelope}
    (others : ∀ p ∈ before, isReplyTo messageRef p = false) (reply : isReplyTo messageRef m)
    (r : Int32) (after : List Envelope) :
    (before ++ m :: after).filter (isReplyTo r) = (m :: (before ++ after)).filter (isReplyTo r) := by
  by_cases hr : messageRef = r
  · subst hr
    have none : before.filter (isReplyTo messageRef) = [] :=
      List.filter_eq_nil_iff.mpr fun p hp => by simp [others p hp]
    simp [List.filter_cons, none]
  · simp [isReplyTo_of_ne reply hr]

theorem Waits.reply {router : ConnectionId} {messageRef : Int32} {b b' : Mail} {m : Envelope}
    (h : b.Waits router messageRef (some m) b') : isReplyTo messageRef m := by
  cases h with
  | kept _ _ reply | arrived _ _ _ reply => exact reply

/-- Of the replies under a reference a wait takes the one that it gets, and the others keep their
order. -/
theorem Waits.filter_isReplyTo {router : ConnectionId} {messageRef : Int32} {b b' : Mail}
    {found : Option Envelope} (h : b.Waits router messageRef found b') (r : Int32) :
    (b.pending ++ b.unread).filter (isReplyTo r) =
      (found.toList ++ (b'.pending ++ b'.unread)).filter (isReplyTo r) := by
  cases h with
  | @kept before after m split others reply =>
    have first := filter_first others reply r (after ++ b.unread)
    simpa [split] using first
  | @arrived read rest m notKept split others reply =>
    have before : ∀ p ∈ b.pending ++ read, isReplyTo messageRef p = false :=
      fun p hp => (List.mem_append.mp hp).elim (notKept p) (others p)
    have first := filter_first before reply r rest
    simp only [List.append_assoc] at first
    rw [split, first]
    simp [setAside, List.filter_cons, filter_replies]
  | ended _ split _ => simp [setAside, split, filter_replies]

theorem Waits.perm {router : ConnectionId} {messageRef : Int32} {b b' : Mail}
    {found : Option Envelope} (h : b.Waits router messageRef found b') :
    b.all.Perm (b'.all ++ found.toList) := by
  cases h with
  | kept split _ _ =>
    simp only [all, split, Option.toList_some, List.append_assoc, List.cons_append]
    rw [List.perm_iff_count]
    intro m
    simp only [List.count_append, List.count_cons, List.count_nil]
    omega
  | arrived _ split _ _ => exact setAside_perm router b (by simp [split])
  | ended _ split _ => exact setAside_perm router b (by simp [split])

/-- What arrives at a step is in the mail afterwards or was delivered at the step. -/
theorem Step.perm {router : ConnectionId} {b b' : Mail} {event : RouterEvent}
    {outcome : RouterOutcome} (h : b.Step router event outcome b') :
    (b.all ++ outcome.arrivals).Perm (b'.all ++ outcome.deliveries) := by
  cases h with
  | arrives m =>
    simp only [all, RouterOutcome.arrivals, RouterOutcome.deliveries, List.append_nil]
    rw [List.perm_iff_count]
    intro n
    simp only [List.count_append]
    omega
  | lost => exact .refl _
  | hangsUp => exact .refl _
  | answered h =>
    show (b.all ++ []).Perm _
    rw [List.append_nil]
    exact h.perm
  | ended h _ =>
    show (b.all ++ []).Perm _
    rw [List.append_nil]
    exact h.perm
  | takes h =>
    simp only [all, h, RouterOutcome.arrivals, RouterOutcome.deliveries, List.append_nil,
      List.map_cons, Option.toList_some, List.map_nil]
    rw [List.perm_iff_count]
    intro n
    simp only [List.count_append, List.count_cons, List.count_nil]
    omega
  | takesNothing => exact .refl _

/-- Over a run, what was there or arrived is in the mail or was delivered, each once. -/
theorem Run.perm {router : ConnectionId} {b b' : Mail} {events : List RouterEvent}
    {outcomes : List RouterOutcome} (h : b.Run router events outcomes b') :
    (b.all ++ outcomes.flatMap RouterOutcome.arrivals).Perm
      (b'.all ++ outcomes.flatMap RouterOutcome.deliveries) := by
  induction h with
  | nil => exact .refl _
  | cons step _ ih =>
    have first := step.perm
    rw [List.perm_iff_count] at ih first ⊢
    intro m
    have hi := ih m
    have hf := first m
    simp only [List.flatMap_cons, List.count_append] at hi hf ⊢
    omega

end Mail

end ModuleLink
