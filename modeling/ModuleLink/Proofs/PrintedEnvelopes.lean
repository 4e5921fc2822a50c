import ModuleLink.Program
import ModuleLink.Proofs.EnvelopeRoundTrip
import ModuleLink.Proofs.PlainTexts
import ModuleLink.Proofs.SilentStreams

/-! # What is printed of the envelopes that arrive

While the program listens, connections come one after the other, and each carries whole envelopes.
Of all these the program prints those of the classes that were asked for, in order of arrival, and as
many as were asked for. It ends when the last of them is printed, and not before the first one. -/
namespace ModuleLink

namespace Connection

/-- The peer has sent these envelopes, the bytes cut in any way, and closed. -/
structure HasSent (c : Connection) (ms : List Envelope) : Prop where
  acceptable : ∀ m ∈ ms, m.Acceptable {}
  goesOn : ∀ turn ∈ c.incoming.turns, turn.goesOn
  unread : c.incoming.unread = ms.flatMap Envelope.wire
  ended : c.incoming.exhaustion = .ended

/-- The peer has sent these envelopes and perhaps a part of another one so far. -/
structure IsSending (c : Connection) (ms : List Envelope) : Prop where
  acceptable : ∀ m ∈ ms, m.Acceptable {}
  idle : c.incoming.Idle
  unread : ∃ (part missing : Bytes) (m : Envelope),
    c.incoming.unread = ms.flatMap Envelope.wire ++ part ∧
      part ++ missing = m.wire ∧ m.Acceptable {} ∧ missing ≠ []

end Connection

/-- Connections at some moment, with the peers that were served and what each of them has sent:
those that have closed, and perhaps one that has not, behind which others may wait. -/
inductive Arriving : List Connection → List (String × List Envelope) → Prop
  | none : Arriving [] []
  | closed {c : Connection} {rest : List Connection} {ms : List Envelope}
      {sent : List (String × List Envelope)} (h : c.HasSent ms) (later : Arriving rest sent) :
      Arriving (c :: rest) ((c.peer, ms) :: sent)
  | sending {c : Connection} {waiting : List Connection} {ms : List Envelope} (h : c.IsSending ms) :
      Arriving (c :: waiting) [(c.peer, ms)]

/-- The first of these up to a limit, and what comes behind them if they are not so many. -/
def upTo (limit : Option Nat) (hs : List Heard) (behind : Pause) : List Heard × Pause :=
  match limit with
  | none => (hs, behind)
  | some n => (hs.take n, if n ≤ hs.length then .counted else behind)

theorem upTo_cons_succ (r : Option Nat) (h : Heard) (hs : List Heard) (behind : Pause) :
    upTo (r.map (· + 1)) (h :: hs) behind = (h :: (upTo r hs behind).1, (upTo r hs behind).2) := by
  cases r <;> simp [upTo]

theorem upTo_append {limit : Option Nat} {hs : List Heard} (below : ∀ n ∈ limit, hs.length < n)
    (more : List Heard) (behind : Pause) :
    upTo limit (hs ++ more) behind =
      (hs ++ (upTo (limit.map (· - hs.length)) more behind).1,
        (upTo (limit.map (· - hs.length)) more behind).2) := by
  cases limit with
  | none => rfl
  | some n =>
    have := below n rfl
    simp only [upTo, Option.map_some, List.take_append, List.length_append,
      List.take_of_length_le (Nat.le_of_lt this), Nat.sub_le_iff_le_add']

theorem upTo_of_below {limit : Option Nat} {hs : List Heard} (below : ∀ n ∈ limit, hs.length < n)
    (behind : Pause) : upTo limit hs behind = (hs, behind) := by
  cases limit with
  | none => rfl
  | some n =>
    have := below n rfl
    rw [upTo, List.take_of_length_le (Nat.le_of_lt this), if_neg (Nat.not_le.mpr this)]

theorem upTo_of_reached {n : Nat} {hs : List Heard} (reached : n ≤ hs.length) (behind : Pause) :
    upTo (some n) hs behind = (hs.take n, .counted) := by
  rw [upTo, if_pos reached]

theorem upTo_append_of_reached {n : Nat} {hs : List Heard} (reached : n ≤ hs.length)
    (more : List Heard) (behind : Pause) :
    upTo (some n) (hs ++ more) behind = (hs.take n, .counted) := by
  have further : n ≤ (hs ++ more).length := by
    rw [List.length_append]
    exact Nat.le_add_right_of_le reached
  rw [upTo_of_reached further, List.take_append_of_le_length reached]

theorem upTo_pause_ne {limit : Option Nat} {hs : List Heard} {behind other : Pause}
    (counted : .counted ≠ other) (follows : behind ≠ other) : (upTo limit hs behind).2 ≠ other := by
  cases limit with
  | none => exact follows
  | some n =>
    simp only [upTo]
    split
    · exact counted
    · exact follows

namespace ListenOptions

variable {o : ListenOptions} {peer : String} {printed : Nat} {s t : Source} {m : Envelope}
  {ms : List Envelope}

def Wants (o : ListenOptions) (m : Envelope) : Prop :=
  ∀ classes, o.classes = some classes → m.classId ∈ classes

theorem passes_iff (o : ListenOptions) (m : Envelope) : o.passes m = true ↔ o.Wants m := by
  simp [passes, Wants, Option.all_eq_true]

instance (o : ListenOptions) (m : Envelope) : Decidable (o.Wants m) :=
  decidable_of_iff _ (o.passes_iff m)

/-- What there is to print of the envelopes of one peer. -/
def wantedOf (o : ListenOptions) (peer : String) (ms : List Envelope) : List Heard :=
  (ms.filter (o.Wants ·)).map (⟨peer, ·⟩)

def wanted (o : ListenOptions) (sent : List (String × List Envelope)) : List Heard :=
  sent.flatMap fun (peer, ms) => o.wantedOf peer ms

theorem wanted_cons (o : ListenOptions) (peer : String) (ms : List Envelope)
    (sent : List (String × List Envelope)) :
    o.wanted ((peer, ms) :: sent) = o.wantedOf peer ms ++ o.wanted sent := List.flatMap_cons

/-- So many envelopes end the program: it does not end before it printed one. -/
def enough (o : ListenOptions) : Option Nat := o.count.map (max 1)

def room (o : ListenOptions) (printed : Nat) : Option Nat := o.enough.map (· - printed)

theorem room_zero (o : ListenOptions) : o.room 0 = o.enough := Option.map_id'

/-- More envelopes are to be printed, and the limit is one that can be counted to. -/
structure Short (o : ListenOptions) (printed : Nat) : Prop where
  more : o.room printed ≠ some 0
  countable : ∀ n ∈ o.count, n ≤ CommandLine.largestCount

theorem Short.start (countable : ∀ n ∈ o.count, n ≤ CommandLine.largestCount) : o.Short 0 := by
  refine ⟨fun none => ?_, countable⟩
  simp only [room, enough, Option.map_map, Option.map_eq_some_iff, Function.comp] at none
  obtain ⟨k, -, hk⟩ := none
  omega

theorem Short.pos (short : o.Short printed) {r : Nat} (hr : r ∈ o.room printed) : 0 < r :=
  Nat.pos_of_ne_zero fun none => short.more (none ▸ hr)

theorem Short.upTo_nil (short : o.Short printed) (behind : Pause) :
    upTo (o.room printed) [] behind = ([], behind) := by
  refine upTo_of_below (fun r hr => ?_) behind
  exact short.pos hr

theorem Short.room_counted (short : o.Short printed) {added : Nat}
    (within : ∀ r ∈ o.room printed, added ≤ r) :
    o.room (counted printed added) = (o.room printed).map (· - added) := by
  have more := short.more
  cases count : o.count with
  | none => simp [room, enough, count]
  | some k =>
    have countable := short.countable k count
    have positive : 1 ≤ CommandLine.largestCount := by decide
    simp only [room, enough, count, Option.map_some, Option.mem_def, Option.some.injEq,
      forall_eq', ne_eq] at more within ⊢
    rw [counted, Nat.min_eq_right (by omega), Nat.sub_sub]

theorem Short.room_eq (short : o.Short printed) :
    o.room printed = (o.room (counted printed 1)).map (· + 1) := by
  rw [short.room_counted fun r hr => short.pos hr]
  cases room : o.room printed with
  | none => rfl
  | some r => rw [Option.map_some, Option.map_some, Nat.sub_add_cancel (short.pos room)]

/-- Printing one envelope more ends the program exactly if there is room for no other one. -/
theorem isEnough_counted (o : ListenOptions) (printed : Nat) :
    o.isEnough (counted printed 1) = true ↔ o.room (counted printed 1) = some 0 := by
  have positive : 1 ≤ counted printed 1 := by
    simp only [counted, CommandLine.largestCount]
    omega
  simp only [isEnough, room, enough, Option.any_eq_true, Option.map_map, Option.map_eq_some_iff,
    Function.comp, decide_eq_true_eq]
  refine exists_congr fun k => and_congr_right fun _ => ?_
  omega

theorem hear_of_ok (hr : receive s {} = (.ok m, t)) :
    o.hear peer printed s =
      if o.passes m then
        if o.isEnough (counted printed 1) then ([⟨peer, m⟩], .counted)
        else (⟨peer, m⟩ :: (o.hear peer (counted printed 1) t).1,
          (o.hear peer (counted printed 1) t).2)
      else o.hear peer printed t := by
  rw [hear]
  split
  · rename_i n u hu
    rw [hr] at hu
    cases hu
    dsimp only [handle]
    split
    · rfl
    · rfl
  · rename_i e u hu
    rw [hr] at hu
    cases hu

theorem hear_of_error {e : FrameError} (hr : receive s {} = (.error e, t)) :
    o.hear peer printed s =
      if e.isDisconnect then ([], .peerClosed)
      else if e.isTimeout ∧ t.turns = [] ∧ t.exhaustion = .silent then ([], .waiting)
      else ([], .failed e) := by
  rw [hear]
  split
  · rename_i n u hu
    rw [hr] at hu
    cases hu
  · rename_i e u hu
    rw [hr] at hu
    cases hu
    rfl

/-- Of the envelopes of one peer those that pass are printed up to the limit. -/
theorem Short.hear {behind : Pause} {tail : Bytes} (short : o.Short printed)
    (goesOn : ∀ turn ∈ s.turns, turn.goesOn) (acceptable : ∀ m ∈ ms, m.Acceptable {})
    (hu : s.unread = ms.flatMap Envelope.wire ++ tail)
    (ends : ∀ t printed, s.Yields (ms.flatMap Envelope.wire) t →
      o.hear peer printed t = ([], behind)) :
    o.hear peer printed s = upTo (o.room printed) (o.wantedOf peer ms) behind := by
  induction ms generalizing s printed with
  | nil => rw [ends s printed (.refl s), wantedOf, List.filter_nil, List.map_nil, short.upTo_nil]
  | cons m ms ih =>
    obtain ⟨hm, acceptable⟩ := List.forall_mem_cons.mp acceptable
    rw [List.flatMap_cons, List.append_assoc] at hu
    obtain ⟨t, hr, hy, left⟩ := receive_takes goesOn hm hu
    have next : ∀ u printed, t.Yields (ms.flatMap Envelope.wire) u →
        o.hear peer printed u = ([], behind) := fun u printed hu => ends u printed (hy.trans hu)
    rw [hear_of_ok hr]
    by_cases wants : o.Wants m
    · rw [if_pos ((o.passes_iff m).mpr wants), short.room_eq, wantedOf,
        List.filter_cons_of_pos (by simpa using wants), List.map_cons, upTo_cons_succ, ← wantedOf]
      by_cases enough : o.isEnough (counted printed 1)
      · rw [if_pos enough, (o.isEnough_counted printed).mp enough]
        simp only [upTo, List.take_zero, Nat.zero_le, if_true]
      · have still : o.Short (counted printed 1) :=
          ⟨mt (o.isEnough_counted printed).mpr enough, short.countable⟩
        rw [if_neg enough, ih still (hy.goesOn goesOn) acceptable left next]
    · rw [if_neg (mt (o.passes_iff m).mp wants), ih short (hy.goesOn goesOn) acceptable left next,
        wantedOf, wantedOf, List.filter_cons_of_neg (by simpa using wants)]

/-- A connection that was closed is left behind its last envelope. -/
theorem Short.hear_hasSent {c : Connection} (short : o.Short printed) (h : c.HasSent ms) :
    o.hear peer printed c.incoming = upTo (o.room printed) (o.wantedOf peer ms) .peerClosed := by
  have unread : c.incoming.unread = ms.flatMap Envelope.wire ++ [] := by
    rw [h.unread, List.append_nil]
  refine short.hear h.goesOn h.acceptable unread ?_
  intro t printed hy
  have left : t.unread = [] := List.append_cancel_left (hy.unread.symm.trans unread)
  have ends : (receive t {}).1 = .error (.transport (.endOfStream Header.size t.unread.length)) :=
    (receive_cutHeader (hy.goesOn h.goesOn) (hy.exhaustion.trans h.ended)
      (by rw [left]; decide)).1
  rw [hear_of_error (Prod.ext ends rfl)]
  rfl

/-- Behind the last envelope of one that is open the program waits. -/
theorem Short.hear_isSending {c : Connection} (short : o.Short printed) (h : c.IsSending ms) :
    o.hear peer printed c.incoming = upTo (o.room printed) (o.wantedOf peer ms) .waiting := by
  obtain ⟨part, missing, m, unread, whole, hm, some⟩ := h.unread
  refine short.hear h.idle.goesOn h.acceptable unread ?_
  intro t printed hy
  obtain rfl := List.append_cancel_left (hy.unread.symm.trans unread)
  obtain ⟨e, u, hr, late, idle⟩ := receive_of_part (hy.idle h.idle) hm whole some
  have stays : (FrameError.transport e).isDisconnect = false := e.isDisconnect_of_isTimeout late
  rw [hear_of_error hr, stays, if_neg Bool.false_ne_true, if_pos ⟨late, idle.turns, idle.silent⟩]

/-- The next connection is served only after one that was closed. -/
theorem hearAll_of_peerClosed {c : Connection} (rest : List Connection) {heard : List Heard}
    (hears : o.hear c.peer printed c.incoming = (heard, .peerClosed)) :
    o.hearAll printed (c :: rest) =
      (heard ++ (o.hearAll (counted printed heard.length) rest).1,
        (o.hearAll (counted printed heard.length) rest).2) := by
  rw [hearAll, hears]

theorem hearAll_of_ne {c : Connection} (rest : List Connection) {heard : List Heard} {pause : Pause}
    (hears : o.hear c.peer printed c.incoming = (heard, pause)) (stays : pause ≠ .peerClosed) :
    o.hearAll printed (c :: rest) = (heard, pause) := by
  rw [hearAll, hears]
  split
  · rename_i closed
    exact absurd (Prod.mk.inj closed).2 stays
  · rfl

/-- Of the envelopes of all peers those that pass are printed up to the limit. -/
theorem Short.hearAll {arrivals : List Connection} {sent : List (String × List Envelope)}
    (short : o.Short printed) (arriving : Arriving arrivals sent) :
    o.hearAll printed arrivals = upTo (o.room printed) (o.wanted sent) .waiting := by
  induction arriving generalizing printed with
  | none => exact (short.upTo_nil .waiting).symm
  | @sending c waiting ms h =>
    have hears : o.hear c.peer printed c.incoming = _ := short.hear_isSending h
    rw [wanted_cons, wanted, List.flatMap_nil, List.append_nil]
    exact hearAll_of_ne waiting hears (upTo_pause_ne nofun nofun)
  | @closed c rest ms sent h later ih =>
    have hears : o.hear c.peer printed c.incoming = _ := short.hear_hasSent h
    rw [wanted_cons]
    generalize o.wantedOf c.peer ms = hs at hears ⊢
    -- Either the next peer has its turn, with the count as it stands, or the run ends in this one.
    by_cases below : ∀ n ∈ o.room printed, hs.length < n
    · rw [upTo_of_below below] at hears
      have room := short.room_counted fun n hn => Nat.le_of_lt (below n hn)
      have still : o.Short (counted printed hs.length) := by
        refine ⟨fun full => ?_, short.countable⟩
        obtain ⟨n, hn, none⟩ := Option.map_eq_some_iff.mp (room.symm.trans full)
        have := below n hn
        omega
      rw [hearAll_of_peerClosed rest hears, ih still, room, upTo_append below]
    · simp only [not_forall, Nat.not_lt] at below
      obtain ⟨n, limit, reached⟩ := below
      rw [Option.mem_def.mp limit] at hears ⊢
      rw [upTo_of_reached reached] at hears
      rw [upTo_append_of_reached reached, hearAll_of_ne rest hears nofun]

end ListenOptions

namespace CommandLine

theorem optional_natural_le {limit : Nat} {value : Option String} {count : Option Nat}
    (h : optional (natural? limit ·.toList) value = some count) : ∀ n ∈ count, n ≤ limit := by
  cases value with
  | none =>
    obtain rfl := Option.some.inj h
    exact nofun
  | some text =>
    obtain ⟨n, hn, rfl⟩ := Option.map_eq_some_iff.mp h
    rintro _ ⟨⟩
    exact (natural?_eq_some_iff.mp hn).2

theorem listen?_count_le {w : Words} {o : ListenOptions} (h : listen? w = some o) :
    ∀ n ∈ o.count, n ≤ largestCount := by
  unfold listen? at h
  split at h
  · obtain ⟨port, -, h⟩ := Option.bind_eq_some_iff.mp h
    have counts : ∀ classes, (do
        let count ← optional (natural? largestCount ·.toList) (w.value? "count")
        let within ← local? w
        some { port, classes, count, integers := w.has "ints", within }) = some o →
          ∀ n ∈ o.count, n ≤ largestCount := by
      intro classes h
      obtain ⟨count, hc, h⟩ := Option.bind_eq_some_iff.mp h
      obtain ⟨within, -, h⟩ := Option.bind_eq_some_iff.mp h
      obtain rfl := Option.some.inj h
      exact optional_natural_le hc
    dsimp only at h
    split at h
    · exact counts none h
    · obtain ⟨classes, -, h⟩ := Option.bind_eq_some_iff.mp h
      exact counts classes h
  · cases h

theorem listen?_of_command? {env : Environment} {name : String} {rules : List OptionRule}
    {read : Words → Option Command} {w : Words} {o : ListenOptions}
    (h : command? env name = some (rules, read)) (hr : read w = some (.listen o)) :
    listen? w = some o := by
  unfold command? at h
  split at h <;> cases h
  · obtain ⟨send, -, other⟩ := Option.map_eq_some_iff.mp hr
    cases other
  · obtain ⟨listen, h, same⟩ := Option.map_eq_some_iff.mp hr
    exact Command.listen.inj same ▸ h
  · dsimp only at hr
    split at hr <;> cases hr
  · obtain ⟨doctor, -, other⟩ := Option.map_eq_some_iff.mp hr
    cases other

/-- The program can count to every limit that it accepts. -/
theorem parse_count_le {env : Environment} {words : List String} {format : Option ReportFormat}
    {o : ListenOptions} (h : parse env words = some ⟨format, .listen o⟩) :
    ∀ n ∈ o.count, n ≤ largestCount := by
  obtain ⟨⟨outer, rest⟩, -, h⟩ := Option.bind_eq_some_iff.mp h
  dsimp only at h
  split at h
  · obtain ⟨format, -, h⟩ := Option.bind_eq_some_iff.mp h
    cases h
  · split at h
    · obtain ⟨⟨rules, read⟩, hc, h⟩ := Option.bind_eq_some_iff.mp h
      obtain ⟨⟨inner, _⟩, -, h⟩ := Option.bind_eq_some_iff.mp h
      obtain ⟨command, hr, h⟩ := Option.bind_eq_some_iff.mp h
      obtain ⟨before, -, h⟩ := Option.bind_eq_some_iff.mp h
      obtain ⟨after, -, h⟩ := Option.bind_eq_some_iff.mp h
      obtain ⟨-, rfl⟩ := Invocation.mk.inj (Option.some.inj h)
      exact listen?_count_le (listen?_of_command? hc hr)
    · cases h

end CommandLine

/-- To go on to the first envelope makes a difference exactly where none was asked for. -/
theorem upTo_enough_eq_iff (o : ListenOptions) (hs : List Heard) :
    upTo o.enough hs .waiting = upTo o.count hs .waiting ↔ o.count ≠ some 0 := by
  cases count : o.count with
  | none => simp [ListenOptions.enough, count, upTo]
  | some n =>
    cases n with
    | zero => cases hs <;> simp [ListenOptions.enough, count, upTo]
    | succ n =>
      simp [ListenOptions.enough, count]

namespace Program

variable {s : Surroundings} {words : List String} {m : Machine} {format : Option ReportFormat}
  {o : ListenOptions} {id : Nat} {sent : List (String × List Envelope)}

/-- The program has printed just these envelopes and now stands like this, without a failure. -/
structure Prints (s : Surroundings) (words : List String) (m : Machine) (i : Invocation)
    (o : ListenOptions) (shown : List Heard × Pause) : Prop where
  hears : o.hearAll 0 s.arrivals = shown
  finishes : ((run s words).run m).1 = { output := o.report (Program.format s i) s.now shown.1 }

theorem run_listen (parsed : CommandLine.parse s.environment words = some ⟨format, .listen o⟩)
    (bound : ((Machine.listen o.port o.within.settings).run.run m).1 = .ok id)
    (fine : ∀ e, (o.hearAll 0 s.arrivals).2 ≠ .failed e) :
    ((run s words).run m).1 =
      { output :=
          o.report (Program.format s ⟨format, .listen o⟩) s.now (o.hearAll 0 s.arrivals).1 } := by
  rw [run, parsed]
  show ((o.run _ _ _).run m).1 = _
  unfold ListenOptions.run
  rcases hb : (Machine.listen o.port o.within.settings).run.run m with ⟨result, n⟩
  obtain rfl : result = .ok id := by rw [← bound, hb]
  rcases hh : o.hearAll 0 s.arrivals with ⟨heard, pause⟩
  rw [StateT.run_bind, hb]
  show ((Machine.closeListener id >>= fun _ => _).run n).1 = _
  rw [StateT.run_bind]
  cases pause with
  | failed e => exact absurd (congrArg Prod.snd hh) (fine e)
  | _ => rfl

/-- Whatever arrives, the program prints in order of arrival the envelopes of the classes that were
asked for, over all connections, up to the limit or to the first one, whichever is more, and then
ends, or else waits for others. So it prints what it was asked for exactly if it was not asked for
none. -/
theorem prints_iff (parsed : CommandLine.parse s.environment words = some ⟨format, .listen o⟩)
    (bound : ((Machine.listen o.port o.within.settings).run.run m).1 = .ok id)
    (arriving : Arriving s.arrivals sent) :
    Prints s words m ⟨format, .listen o⟩ o (upTo o.enough (o.wanted sent) .waiting) ∧
      (Prints s words m ⟨format, .listen o⟩ o (upTo o.count (o.wanted sent) .waiting) ↔
        o.count ≠ some 0) := by
  have hears : o.hearAll 0 s.arrivals = upTo o.enough (o.wanted sent) .waiting := by
    have short := ListenOptions.Short.start (CommandLine.parse_count_le parsed)
    rw [short.hearAll arriving, o.room_zero]
  have fine : ∀ e, (o.hearAll 0 s.arrivals).2 ≠ .failed e := by
    intro e
    rw [hears]
    exact upTo_pause_ne nofun nofun
  have prints : Prints s words m ⟨format, .listen o⟩ o (upTo o.enough (o.wanted sent) .waiting) :=
    ⟨hears, by rw [run_listen parsed bound fine, hears]⟩
  refine ⟨prints, fun asked => ?_, fun some => ?_⟩
  · exact (upTo_enough_eq_iff o (o.wanted sent)).mp (hears.symm.trans asked.hears)
  · rwa [(upTo_enough_eq_iff o (o.wanted sent)).mpr some] at prints

def closedPeer : Connection where
  name := "first"
  kind := .tcp
  peer := "first"
  incoming := {
    unread := (classified 0x22000004 [65]).wire ++ (classified 0x22000006 [66]).wire
    turns := [.move 5, .fail (.bare .interrupted), .move 24, .move 1]
    exhaustion := .ended }

def busyPeer : Connection where
  name := "second"
  kind := .tcp
  peer := "second"
  incoming := {
    unread := (classified 0x21000005 [67]).wire ++ (classified 0x22000004 [68]).wire.dropLast
    exhaustion := .silent }

theorem closedPeer_hasSent :
    closedPeer.HasSent [classified 0x22000004 [65], classified 0x22000006 [66]] where
  acceptable := by decide
  goesOn := by decide
  unread := by decide
  ended := rfl

theorem busyPeer_isSending : busyPeer.IsSending [classified 0x21000005 [67]] where
  acceptable := by decide
  idle := ⟨rfl, rfl⟩
  unread := ⟨(classified 0x22000004 [68]).wire.dropLast, [68], classified 0x22000004 [68],
    by decide, by decide, by decide, by decide⟩

def freshMachine : Machine := { name := "host" }

def askedForTwo : ListenOptions where
  port := 1381
  classes := some [4, 5]
  count := some 2
  within := { networkOnly := true }

def askingForTwo : List String :=
  ["--format", "raw", "listen", "1381", "--tcp-only", "--classes", "4,5", "--count", "2"]

def twoPeers : Surroundings where
  environment := fun _ => none
  arrivals := [closedPeer, busyPeer, closedPeer]

/-- The program passes over an envelope of another class and goes on to the next peer, and it ends
although that one has not closed and another one waits. -/
theorem prints_iff_twoPeers :
    CommandLine.parse twoPeers.environment askingForTwo = some ⟨some .raw, .listen askedForTwo⟩ ∧
      ((Machine.listen 1381 askedForTwo.within.settings).run.run freshMachine).1 = .ok 0 ∧
      Arriving twoPeers.arrivals
        [("first", [classified 0x22000004 [65], classified 0x22000006 [66]]),
          ("second", [classified 0x21000005 [67]])] ∧
      Prints twoPeers askingForTwo freshMachine ⟨some .raw, .listen askedForTwo⟩ askedForTwo
        ([⟨"first", classified 0x22000004 [65]⟩, ⟨"second", classified 0x21000005 [67]⟩], .counted) ∧
      ((run twoPeers askingForTwo).run freshMachine).1 = { output := [65, 67] } := by
  have parsed : CommandLine.parse twoPeers.environment askingForTwo =
      some ⟨some .raw, .listen askedForTwo⟩ := by decide +kernel
  have bound : ((Machine.listen askedForTwo.port askedForTwo.within.settings).run.run
      freshMachine).1 = .ok 0 := rfl
  have arriving : Arriving twoPeers.arrivals
      [("first", [classified 0x22000004 [65], classified 0x22000006 [66]]),
        ("second", [classified 0x21000005 [67]])] :=
    .closed closedPeer_hasSent (.sending busyPeer_isSending)
  have prints := (prints_iff parsed bound arriving).2.mpr (by decide)
  exact ⟨parsed, bound, arriving, prints, prints.finishes.trans (by decide +kernel)⟩

def askedForNone : ListenOptions where
  port := 1381
  count := some 0
  within := { networkOnly := true }

def askingForNone : List String :=
  ["--format", "raw", "listen", "1381", "--tcp-only", "--count", "0"]

def onePeer : Surroundings where
  environment := fun _ => none
  arrivals := [closedPeer]

/-- A program that is to print nothing prints the first envelope that arrives. -/
theorem not_prints_askedForNone :
    CommandLine.parse onePeer.environment askingForNone = some ⟨some .raw, .listen askedForNone⟩ ∧
      ((Machine.listen 1381 askedForNone.within.settings).run.run freshMachine).1 = .ok 0 ∧
      Arriving onePeer.arrivals
        [("first", [classified 0x22000004 [65], classified 0x22000006 [66]])] ∧
      ((run onePeer askingForNone).run freshMachine).1 = { output := [65] } ∧
      ¬ Prints onePeer askingForNone freshMachine ⟨some .raw, .listen askedForNone⟩ askedForNone
        (upTo askedForNone.count (askedForNone.wanted
          [("first", [classified 0x22000004 [65], classified 0x22000006 [66]])]) .waiting) := by
  refine ⟨by decide +kernel, rfl, .closed closedPeer_hasSent .none, by decide +kernel, ?_⟩
  intro asked
  exact absurd asked.hears (by decide +kernel)

end Program

end ModuleLink
