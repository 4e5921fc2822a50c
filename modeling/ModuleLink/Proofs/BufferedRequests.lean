import Mathlib.Data.List.Chain
import ModuleLink.Endpoints
import ModuleLink.Proofs.FailingActs
import ModuleLink.Proofs.RequestLines

/-! # Requests that lie in a listener's buffer

A listener takes one request a turn and sleeps whenever that one fails. What it has read already
does not wake it: the requests behind the one that failed wait, one for each time it wakes up. -/
namespace ModuleLink

theorem result_of_newline_mem {pending : Bytes} {pipe : Source}
    (h : newline ∈ (nextRequest pending pipe).pending) :
    ∃ line, (nextRequest pending pipe).result = .ok (some line) := by
  fun_induction nextRequest pending pipe with
  | case1 pending pipe line rest hs => exact ⟨line, rfl⟩
  | case2 pending pipe hs t hr => exact absurd h (splitLine?_eq_none_iff.mp hs)
  | case3 pending pipe hs b bs t hr longer ih => exact ih h
  | case4 pending pipe hs cause t hr hi ih => exact ih h
  | case5 pending pipe hs cause t hr hi hw => exact absurd h (splitLine?_eq_none_iff.mp hs)
  | case6 pending pipe hs cause t hr hi hw => exact absurd h (splitLine?_eq_none_iff.mp hs)

theorem nextRequest_of_isLine {line : Bytes} (h : IsLine line) (rest : Bytes) (pipe : Source) :
    nextRequest (line ++ rest) pipe = ⟨.ok (some line), rest, pipe⟩ := by
  unfold nextRequest
  simp only [splitLine?_eq_some_iff.mpr ⟨rfl, h⟩]

namespace MachineAct

variable {α β : Type}

def Spares (a : MachineAct α) : Prop := ∀ m, (a.run m).2.listeners = m.listeners

theorem Spares.pure (v : α) : (Pure.pure v : MachineAct α).Spares := fun _ => rfl

theorem Spares.throw (e : TransportError) : (MonadExcept.throw e : MachineAct α).Spares :=
  fun _ => rfl

theorem Spares.get : (MonadState.get : MachineAct Machine).Spares := fun _ => rfl

theorem Spares.require (r : Except TransportError Unit) : (Machine.require r).Spares := by
  intro m
  cases r <;> rfl

theorem Spares.bind {a : MachineAct α} {f : α → MachineAct β} (ha : a.Spares)
    (hf : ∀ v, (f v).Spares) : (a >>= f).Spares := by
  intro m
  have first := ha m
  rw [run_bind]
  generalize a.run m = out at first ⊢
  obtain ⟨_ | v, n⟩ := out
  · exact first
  · exact (hf v n).trans first

theorem Spares.onFiles (wrap : SystemError → TransportError)
    (f : FileSystem → Except SystemError (α × FileSystem)) : (Machine.onFiles wrap f).Spares := by
  intro m
  simp only [Machine.onFiles, run_bind, run_get]
  cases f m.files <;> rfl

theorem Spares.orUndo {undo : FileSystem → FileSystem} {a : MachineAct α} (ha : a.Spares) :
    (Machine.orUndo undo a).Spares := by
  intro m
  have first := ha m
  unfold Machine.orUndo
  rw [run_tryCatch]
  generalize a.run m = out at first ⊢
  obtain ⟨_ | v, n⟩ := out <;> exact first

end MachineAct

theorem spares_sendGreeting (wrap : SystemError → TransportError) (file : Nat) :
    (sendGreeting wrap file).Spares := by
  refine .bind .get fun m => ?_
  rcases m.files.writeAll file [greeting] with ⟨result, files⟩
  cases result <;> exact fun _ => rfl

theorem spares_awaitGreeting (file : Nat) : (awaitGreeting file).Spares := by
  refine .bind .get fun m => ?_
  dsimp only
  split
  · exact .throw _
  · exact .throw _
  · exact .throw _
  · exact .bind (fun _ => rfl) fun _ => .require _

theorem PipeEndpoint.spares_offer (r : PipeRequest) : (PipeEndpoint.offer r).Spares :=
  .bind (.onFiles _ _) fun _ => .orUndo <| .bind (.onFiles _ _) fun _ =>
    .orUndo <| .bind (spares_sendGreeting _ _) fun _ => .pure _

def PipeEndpoint.request (e : PipeEndpoint) (line : Except TransportError (Option Bytes)) :
    Except TransportError (Option PipeRequest) := do
  match ← line with
  | none => return none
  | some line => return some (← PipeRequest.parse e.directory line)

theorem PipeEndpoint.request_eq_none {e : PipeEndpoint}
    {line : Except TransportError (Option Bytes)} (h : e.request line = .ok none) :
    line = .ok none := by
  rcases line with _ | _ | line
  · cases h
  · rfl
  · change (do return some (← PipeRequest.parse e.directory line)) = _ at h
    cases hp : PipeRequest.parse e.directory line with
    | error => rw [hp] at h; cases h
    | ok => rw [hp] at h; cases h

namespace Machine

variable {m n : Machine} {id : Nat} {e : PipeEndpoint}

theorem pipeEndpoint?_congr (h : n.listeners = m.listeners) :
    n.pipeEndpoint? id = m.pipeEndpoint? id := by
  simp only [pipeEndpoint?, listener, h]

theorem pipeEndpoint?_setEndpoint (he : m.pipeEndpoint? id = some e) (now : PipeEndpoint) :
    ((setEndpoint id (.pipe now)).run m).2.pipeEndpoint? id = some now := by
  have inside : id < m.listeners.length := by
    refine Nat.lt_of_not_le fun outside => ?_
    simp [pipeEndpoint?, listener, List.getElem?_eq_none outside] at he
  show pipeEndpoint? { m with listeners := m.listeners.modify id fun l =>
    { l with endpoint := some (.pipe now) } } id = some now
  simp [pipeEndpoint?, listener, inside]

def taken (m : Machine) (e : PipeEndpoint) (reads : List Turn) : Dequeued :=
  nextRequest e.pending (e.unreadSource reads m.files)

/-- The machine after an endpoint took a request. -/
def afterTaking (m : Machine) (id : Nat) (e : PipeEndpoint) (reads : List Turn) : Machine :=
  let files := m.files.leaveUnread e.file (m.taken e reads).pipe.unread
  ((setEndpoint id (.pipe { e with pending := (m.taken e reads).pending })).run { m with files }).2

theorem run_offerNext (he : m.pipeEndpoint? id = some e) (reads : List Turn) :
    (offerNext id reads).run m =
      match e.request (m.taken e reads).result with
      | .error error => (.error error, m.afterTaking id e reads)
      | .ok none => (.ok (), m.afterTaking id e reads)
      | .ok (some r) =>
        match (PipeEndpoint.offer r).run (m.afterTaking id e reads) with
        | (.ok link, n) =>
          let offered := some link
          (.ok (), ((setEndpoint id
            (.pipe { e with pending := (m.taken e reads).pending, offered })).run n).2)
        | (.error error, n) => (.error error, n) := by
  have took : (e.takeRequest reads).run m =
      ((e.request (m.taken e reads).result, { e with pending := (m.taken e reads).pending }),
        { m with files := m.files.leaveUnread e.file (m.taken e reads).pipe.unread }) := rfl
  have kept : ((setEndpoint id (.pipe { e with pending := (m.taken e reads).pending })).run
      { m with files := m.files.leaveUnread e.file (m.taken e reads).pipe.unread }).2 =
        m.afterTaking id e reads := rfl
  simp only [offerNext, run_bind, run_get, he, run_lift, took, kept]
  cases e.request (m.taken e reads).result with
  | error error => rfl
  | ok request =>
    cases request with
    | none => rfl
    | some r =>
      simp only [run_bind]
      rcases (PipeEndpoint.offer r).run (m.afterTaking id e reads) with ⟨_ | _, n⟩ <;> rfl

theorem pipeEndpoint?_afterTaking (he : m.pipeEndpoint? id = some e) (reads : List Turn) :
    (m.afterTaking id e reads).pipeEndpoint? id =
      some { e with pending := (m.taken e reads).pending } := by
  have found : pipeEndpoint? { m with
      files := m.files.leaveUnread e.file (m.taken e reads).pipe.unread } id = some e := he
  exact pipeEndpoint?_setEndpoint found _

/-- An attempt takes one request from the pipe, if there is one; it then offers a channel or
fails. -/
theorem pipeEndpoint?_offerNext (he : m.pipeEndpoint? id = some e) (reads : List Turn) :
    ∃ offered, ((offerNext id reads).run m).2.pipeEndpoint? id =
        some { e with pending := (m.taken e reads).pending, offered } ∧
      (((offerNext id reads).run m).1.isOk → offered = none → (m.taken e reads).result = .ok none) := by
  have first := pipeEndpoint?_afterTaking he reads
  rw [run_offerNext he]
  rcases hr : e.request (m.taken e reads).result with error | _ | r
  · exact ⟨e.offered, first, nofun⟩
  · exact ⟨e.offered, first, fun _ _ => PipeEndpoint.request_eq_none hr⟩
  · have same := PipeEndpoint.spares_offer r (m.afterTaking id e reads)
    dsimp only
    generalize (PipeEndpoint.offer r).run (m.afterTaking id e reads) = out at same ⊢
    rcases out with ⟨error | link, n⟩
    · exact ⟨e.offered, (pipeEndpoint?_congr same).trans first, nofun⟩
    · exact ⟨some link, pipeEndpoint?_setEndpoint ((pipeEndpoint?_congr same).trans first) _, nofun⟩

theorem run_takeOffered (he : m.pipeEndpoint? id = some e) :
    (takeOffered id).run m =
      match e.offered with
      | none => (.ok none, m)
      | some link =>
        (orUndo link.close do awaitGreeting link.reader; return some link).run
          ((setEndpoint id (.pipe { e with offered := none })).run m).2 := by
  simp only [takeOffered, run_bind, run_get, he]
  cases e.offered <;> rfl

/-- Taking an offered channel leaves the buffer alone, and ends in that channel or an error. -/
theorem pipeEndpoint?_takeOffered (he : m.pipeEndpoint? id = some e) :
    ∃ offered, ((takeOffered id).run m).2.pipeEndpoint? id = some { e with offered } ∧
      (((takeOffered id).run m).1 = .ok none → e.offered = none) := by
  rw [run_takeOffered he]
  cases ho : e.offered with
  | none => exact ⟨none, by rw [he, ← ho], fun _ => rfl⟩
  | some link =>
    have now := pipeEndpoint?_setEndpoint he { e with offered := none }
    generalize ((setEndpoint id (.pipe { e with offered := none })).run m).2 = n at now
    have spares : (orUndo link.close do awaitGreeting link.reader; return some link).Spares :=
      .orUndo (.bind (spares_awaitGreeting _) fun _ => .pure _)
    refine ⟨none, (pipeEndpoint?_congr (spares n)).trans now, fun h => ?_⟩
    simp only [orUndo, run_tryCatch, run_bind] at h
    generalize (awaitGreeting link.reader).run n = greeted at h
    rcases greeted with ⟨_ | _, n⟩ <;> cases h

/-- One attempt to accept takes one request from the pipe. It finds nobody only if there was none. -/
theorem pipeEndpoint?_tryAccept (he : m.pipeEndpoint? id = some e) (reads : List Turn)
    (greet : FileSystem → FileSystem) :
    ∃ offered, ((tryAccept id reads greet).run m).2.pipeEndpoint? id =
        some { e with pending := (m.taken e reads).pending, offered } ∧
      (((tryAccept id reads greet).run m).1 = .ok none → (m.taken e reads).result = .ok none) := by
  obtain ⟨offered, now, idle⟩ := pipeEndpoint?_offerNext he reads
  simp only [tryAccept, run_bind]
  generalize (offerNext id reads).run m = out at now idle ⊢
  rcases out with ⟨error | _, n⟩
  · exact ⟨offered, now, nofun⟩
  · have kept : pipeEndpoint? { n with files := greet n.files } id = _ := now
    obtain ⟨left, later, none⟩ := pipeEndpoint?_takeOffered kept
    exact ⟨left, later, fun h => idle rfl (none h)⟩

/-- What a listener read from its pipe and has not looked at. -/
def buffered (m : Machine) (id : Nat) : Bytes := (m.pipeEndpoint? id).elim [] (·.pending)

theorem buffered_of_pipeEndpoint? (he : m.pipeEndpoint? id = some e) : m.buffered id = e.pending := by
  rw [buffered, he]
  rfl

end Machine

namespace Sleep

/-- The turn before a sleep took a request that failed, and kept what is behind it. -/
structure Fails (s : Sleep) (id : Nat) (line rest : Bytes) : Prop where
  taken : ∃ e, s.before.pipeEndpoint? id = some e ∧
    (s.before.taken e s.turn.reads).result = .ok (some line) ∧
    (s.before.taken e s.turn.reads).pending = rest
  failed : ∃ error, s.attempt = .error error

/-- A sleep after an attempt to accept that took from the pipe of an endpoint. -/
structure Follows (s : Sleep) (id : Nat) (e : PipeEndpoint) : Prop where
  found : s.before.pipeEndpoint? id = some e
  kept : ∃ offered, s.asleep.pipeEndpoint? id =
    some { e with pending := (s.before.taken e s.turn.reads).pending, offered }
  idle : s.attempt = .ok none ∧ (s.before.taken e s.turn.reads).result = .ok none ∨
    ∃ error, s.attempt = .error error

variable {s : Sleep} {id : Nat} {e : PipeEndpoint}

theorem Follows.buffered (h : s.Follows id e) :
    s.asleep.buffered id = (s.before.taken e s.turn.reads).pending := by
  obtain ⟨offered, kept⟩ := h.kept
  exact Machine.buffered_of_pipeEndpoint? kept

theorem Follows.newline_mem_iff (h : s.Follows id e) :
    newline ∈ s.asleep.buffered id ↔ ∃ line rest, s.Fails id line rest ∧ newline ∈ rest := by
  rw [h.buffered]
  constructor
  · intro more
    obtain ⟨line, took⟩ := result_of_newline_mem more
    have failed : ∃ error, s.attempt = .error error :=
      h.idle.resolve_left fun nobody => by cases took.symm.trans nobody.2
    exact ⟨line, _, ⟨⟨e, h.found, took, rfl⟩, failed⟩, more⟩
  · rintro ⟨line, rest, ⟨⟨e', found, -, rfl⟩, -⟩, more⟩
    obtain rfl := Option.some.inj (h.found.symm.trans found)
    exact more

/-- The first line that is kept fails before the next sleep. -/
theorem Follows.fails (h : s.Follows id e) {line rest : Bytes} (isLine : IsLine line)
    (there : s.before.buffered id = line ++ rest) :
    s.Fails id line rest ∧ s.asleep.buffered id = rest := by
  rw [Machine.buffered_of_pipeEndpoint? h.found] at there
  have took := nextRequest_of_isLine isLine rest (e.unreadSource s.turn.reads s.before.files)
  rw [← there] at took
  have line : (s.before.taken e s.turn.reads).result = .ok (some line) := congrArg (·.result) took
  have kept : (s.before.taken e s.turn.reads).pending = rest := congrArg (·.pending) took
  have failed : ∃ error, s.attempt = .error error :=
    h.idle.resolve_left fun nobody => by cases line.symm.trans nobody.2
  exact ⟨⟨⟨e, h.found, line, kept⟩, failed⟩, h.buffered.trans kept⟩

end Sleep

namespace Machine

variable {m : Machine} {id : Nat} {e : PipeEndpoint}

/-- A turn accepts somebody who asked over the pipes, or goes to sleep. What follows the sleep, if
anything does, is another turn. -/
theorem sleeps_acceptPipe (he : m.pipeEndpoint? id = some e) (deadline : Option Span)
    (turn : ListenTurn) (turns : List ListenTurn) (now : Span) :
    (acceptPipe id deadline (turn :: turns) now m).sleeps = [] ∨
      ∃ s : Sleep, s.before = m ∧ s.Follows id e ∧
        ((acceptPipe id deadline (turn :: turns) now m).sleeps = [s] ∨
          ∃ later n, n.pipeEndpoint? id = s.asleep.pipeEndpoint? id ∧
            (acceptPipe id deadline (turn :: turns) now m).sleeps =
              s :: (acceptPipe id deadline turns later n).sleeps) := by
  obtain ⟨offered, kept, nobody⟩ := pipeEndpoint?_tryAccept he turn.reads turn.greet
  generalize hall : acceptPipe id deadline (turn :: turns) now m = all
  unfold acceptPipe at hall
  split at hall
  · exact .inl (congrArg (·.sleeps) hall).symm
  · rename_i attempt asleep other hrun
    subst hall
    rw [hrun] at kept nobody
    refine .inr ⟨⟨turn, m, attempt, asleep⟩, rfl, ⟨he, ⟨offered, kept⟩, ?_⟩, ?_⟩
    · rcases attempt with error | _ | link
      · exact .inr ⟨error, rfl⟩
      · exact .inl ⟨rfl, nobody rfl⟩
      · exact absurd rfl (other link)
    · dsimp only
      split
      · exact .inl rfl
      · exact .inl rfl
      · exact .inl rfl
      · exact .inl rfl
      · split
        · exact .inl rfl
        · exact .inr ⟨_, { asleep with files := turn.others asleep.files }, rfl, rfl⟩

theorem follows_of_mem_sleeps (he : m.pipeEndpoint? id = some e) {deadline : Option Span}
    {turns : List ListenTurn} {now : Span} {s : Sleep}
    (hs : s ∈ (acceptPipe id deadline turns now m).sleeps) : ∃ e, s.Follows id e := by
  induction turns generalizing now m e with
  | nil => cases hs
  | cons turn turns ih =>
    rcases sleeps_acceptPipe he deadline turn turns now with none | ⟨first, -, follows, rest⟩
    · rw [none] at hs
      cases hs
    · obtain ⟨offered, kept⟩ := follows.kept
      rcases rest with only | ⟨later, n, same, rest⟩
      · rw [only] at hs
        exact ⟨e, List.mem_singleton.mp hs ▸ follows⟩
      · rw [rest] at hs
        rcases List.mem_cons.mp hs with rfl | hs
        · exact ⟨e, follows⟩
        · exact ih (same.trans kept) hs

theorem before_of_head?_sleeps (he : m.pipeEndpoint? id = some e) {deadline : Option Span}
    {turns : List ListenTurn} {now : Span} {s : Sleep}
    (hs : s ∈ (acceptPipe id deadline turns now m).sleeps.head?) : s.before = m := by
  cases turns with
  | nil => cases hs
  | cons turn turns =>
    rcases sleeps_acceptPipe he deadline turn turns now with
      none | ⟨first, before, -, only | ⟨_, _, -, rest⟩⟩
    · rw [none] at hs
      cases hs
    · rw [only] at hs
      exact Option.some.inj hs ▸ before
    · rw [rest] at hs
      exact Option.some.inj hs ▸ before

/-- The turn after a sleep finds the buffer as it was. -/
theorem isChain_sleeps (he : m.pipeEndpoint? id = some e) (deadline : Option Span)
    (turns : List ListenTurn) (now : Span) :
    (acceptPipe id deadline turns now m).sleeps.IsChain fun s t =>
      t.before.buffered id = s.asleep.buffered id := by
  induction turns generalizing now m e with
  | nil => exact .nil
  | cons turn turns ih =>
    rcases sleeps_acceptPipe he deadline turn turns now with none | ⟨first, -, follows, rest⟩
    · rw [none]
      exact .nil
    · obtain ⟨offered, kept⟩ := follows.kept
      rcases rest with only | ⟨later, n, same, rest⟩
      · rw [only]
        exact .singleton _
      · rw [rest]
        refine List.isChain_cons.mpr ⟨fun t ht => ?_, ih (same.trans kept) later⟩
        rw [before_of_head?_sleeps (same.trans kept) ht, buffered, same, buffered]

/-- Whatever is read from the pipe, and in what pieces, a listener sleeps over a complete request
exactly when the one it took before failed and left it behind. It is taken, and fails, before the
next sleep. -/
theorem oversleeps_iff (he : m.pipeEndpoint? id = some e) (deadline : Option Span)
    (turns : List ListenTurn) (now : Span) :
    (∀ s ∈ (acceptPipe id deadline turns now m).sleeps, newline ∈ s.asleep.buffered id ↔
        ∃ line rest, s.Fails id line rest ∧ newline ∈ rest) ∧
      (acceptPipe id deadline turns now m).sleeps.IsChain fun s t =>
        ∀ line rest, IsLine line → s.asleep.buffered id = line ++ rest →
          t.Fails id line rest ∧ t.asleep.buffered id = rest := by
  refine ⟨fun s hs => ?_, ?_⟩
  · obtain ⟨e, follows⟩ := follows_of_mem_sleeps he hs
    exact follows.newline_mem_iff
  · refine (isChain_sleeps he deadline turns now).imp_of_mem_imp fun s t _ ht same => ?_
    obtain ⟨e, follows⟩ := follows_of_mem_sleeps he ht
    exact fun line rest isLine there => follows.fails isLine (same.trans there)

def client : PipeRequest := ⟨['/', 'd', '/', 'u'], ['/', 'd', '/', 'v']⟩

def nonsense : Bytes := [98, 97, 100, newline]

def asked (requests : Bytes) : Machine where
  name := ""
  files := {
    names := [([], 0), ([['d']], 1), ([['d'], ['f']], 2), ([['d'], ['u']], 3), ([['d'], ['v']], 4)]
    nodes := [.directory 0o755, .directory 0o1777, .pipe 0o622 requests, .pipe 0o600 [greeting],
      .pipe 0o600 []]
    opened := [some ⟨2, true, true, 0⟩, some ⟨3, true, true, 0⟩, some ⟨4, true, false, 0⟩] }
  listeners := [{ endpoint := some (.pipe {
    path := ['/', 'd', '/', 'f'], directory := ['/', 'd'], file := 0, handshake := .ofSeconds 5 }) }]

/-- A turn in which something else is written to the pipe and wakes the listener. -/
def noisyTurn : ListenTurn := { quietTurn 0 with polls := fun _ _ => [.woken .zero [false, true]] }

theorem oversleeps_iff_noisyTurn :
    let m := asked (nonsense ++ nonsense ++ client.line)
    let sleeps := (acceptPipe 0 none [noisyTurn, noisyTurn] .zero m).sleeps
    (m.pipeEndpoint? 0).isSome ∧
      sleeps.map (·.asleep.buffered 0) = [nonsense ++ client.line, client.line] ∧
      ∀ s ∈ sleeps, ∃ line rest, s.Fails 0 line rest ∧ newline ∈ rest := by
  intro m sleeps
  have buffered : sleeps.map (·.asleep.buffered 0) = [nonsense ++ client.line, client.line] := by
    decide +kernel
  refine ⟨rfl, buffered, fun s hs => ?_⟩
  obtain ⟨iff, -⟩ := @oversleeps_iff m 0 _ rfl none [noisyTurn, noisyTurn] .zero
  have lines : ∀ kept ∈ [nonsense ++ client.line, client.line], newline ∈ kept := by decide +kernel
  exact (iff s hs).mp (lines _ (buffered ▸ List.mem_map_of_mem hs))

/-- A listener that has read a good request sleeps until its time is over, and accepts the client at
once when it tries again. -/
theorem oversleeps_goodRequest :
    let call := acceptPipe 0 (some (.ofSeconds 1)) [quietTurn 0, quietTurn 0] .zero
      (asked (nonsense ++ client.line))
    (¬ ∀ s ∈ call.sleeps, newline ∉ s.asleep.buffered 0) ∧
      call.sleeps.map (·.asleep.buffered 0) = [client.line] ∧
      (call.result matches some (.ok none)) ∧
      ((tryAccept 0).run call.machine).1.toOption.join.map (·.peer) = some "pipe:///d/u" := by
  decide +kernel

end Machine

end ModuleLink
