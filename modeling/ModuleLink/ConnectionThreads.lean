import ModuleLink.Connections

/-! # Several threads that use one connection

Each side of a connection has a lock. A call looks whether the connection is open, takes the lock
of its side, moves bytes with as many calls of the stream as it needs, and lets the lock go. -/
namespace ModuleLink

/-- What a thread asks of a connection. -/
inductive Demand
  | writeAll (bytes : Bytes)
  | writeVectored (segments : List Bytes) (expected : Nat)
  | readExact (length : Nat)
  | readScattered (first second : Nat)
  deriving DecidableEq, Repr

/-- What a call that has its lock still has to move. -/
inductive Transfer
  | plain (rest : Bytes)
  | gathered (segments : List Bytes)
  | fill (expected : Nat) (got : Bytes)
  | scattered (buffers : List Nat) (expected : Nat) (got : Bytes)
  deriving DecidableEq, Repr

def Demand.send (m : Envelope) : Demand := .writeVectored m.segments m.wireLength

def Demand.writes : Demand → Bool
  | writeAll _ | writeVectored .. => true
  | readExact _ | readScattered .. => false

def Demand.start : Demand → Except TransportError Transfer
  | writeAll bytes => .ok (.plain bytes)
  | writeVectored segments expected =>
    let actual := capacity (segments.map List.length)
    if actual = expected then .ok (.gathered (Sink.advance segments 0))
    else .error (.lengthMismatch expected actual)
  | readExact length => .ok (.fill length [])
  | readScattered first second => .ok (.scattered (advance [first, second] 0) (first + second) [])

inductive Progress
  | more (rest : Transfer)
  | finished (result : Filled)

namespace Progress

def ofWrite (answer : WriteAnswer) (same : Transfer) (after : Nat → Transfer) : Progress :=
  match answer with
  | .took 0 => .finished ⟨[], .error .writeZero⟩
  | .took (n + 1) => .more (after (n + 1))
  | .failed cause =>
    if Sink.isRetried cause then .more same else .finished ⟨[], .error (Sink.writeFailure cause)⟩

def ofRead (answer : ReadAnswer) (expected : Nat) (got : Bytes) (same : Transfer)
    (after : Bytes → Transfer) : Progress :=
  match answer with
  | .bytes [] => .finished ⟨got, .error (.endOfStream expected got.length)⟩
  | .bytes bytes => .more (after bytes)
  | .failed cause =>
    if cause.kind = .interrupted then .more same
    else .finished ⟨got, .error (Source.readFailure cause expected got.length)⟩

end Progress

/-- One call of the stream. -/
def Transfer.step (c : Connection) (t : Transfer) : Progress × Connection :=
  match t with
  | plain rest =>
    if rest = [] then (.finished ⟨[], .ok ()⟩, c)
    else
      let (answer, outgoing) := c.outgoing.write (.plain rest.length) rest
      (.ofWrite answer t fun n => plain (rest.drop n), { c with outgoing })
  | gathered segments =>
    if segments = [] then (.finished ⟨[], .ok ()⟩, c)
    else
      let (answer, outgoing) :=
        c.outgoing.write (.spread (segments.map List.length)) segments.flatten
      (.ofWrite answer t fun n => gathered (Sink.advance segments n), { c with outgoing })
  | fill expected got =>
    if expected ≤ got.length then (.finished ⟨got, .ok ()⟩, c)
    else
      let (answer, incoming) := c.incoming.read (.plain (expected - got.length))
      (.ofRead answer expected got t fun bytes => fill expected (got ++ bytes), { c with incoming })
  | scattered buffers expected got =>
    if buffers = [] then (.finished ⟨got, .ok ()⟩, c)
    else
      let (answer, incoming) := c.incoming.read (.spread buffers)
      (.ofRead answer expected got t fun bytes =>
        scattered (advance buffers bytes.length) expected (got ++ bytes), { c with incoming })

/-- Where a thread stands in a call. -/
inductive CallPhase
  | idle
  /-- The connection was open when it looked. -/
  | reach (demand : Demand)
  | move (demand : Demand) (rest : Transfer)
  | letGo (demand : Demand) (result : Filled)

structure CallThread where
  todo : List Demand
  phase : CallPhase := .idle
  /-- The calls that have returned, oldest first. -/
  returned : List (Demand × Filled) := []

/-- A connection, the threads that use it, and who has the lock of each side. -/
structure ConnectionThreads where
  connection : Connection
  threads : List CallThread
  reader : Option Nat := none
  writer : Option Nat := none
  /-- What was asked by those who got the lock of the write side, in that order. -/
  written : List Demand := []

inductive ConnectionEvent
  | thread (index : Nat)
  | invalidate
  deriving DecidableEq, Repr

namespace ConnectionThreads

def holder (s : ConnectionThreads) (d : Demand) : Option Nat := if d.writes then s.writer else s.reader

def setHolder (s : ConnectionThreads) (d : Demand) (holder : Option Nat) : ConnectionThreads :=
  if d.writes then { s with writer := holder } else { s with reader := holder }

def setThread (s : ConnectionThreads) (i : Nat) (t : CallThread) : ConnectionThreads :=
  { s with threads := s.threads.set i t }

def lock (s : ConnectionThreads) (i : Nat) (d : Demand) : ConnectionThreads :=
  let s := s.setHolder d (some i)
  if d.writes then { s with written := s.written ++ [d] } else s

def stepThread (s : ConnectionThreads) (i : Nat) (t : CallThread) : ConnectionThreads :=
  match t.phase with
  | .idle =>
    match t.todo with
    | [] => s
    | d :: todo =>
      match s.connection.ensureOpen with
      | .ok () => s.setThread i { t with todo, phase := .reach d }
      | .error e => s.setThread i { t with todo, returned := t.returned ++ [(d, ⟨[], .error e⟩)] }
  | .reach d =>
    if (s.holder d).isSome then s
    else
      let phase : CallPhase := match d.start with
        | .ok rest => .move d rest
        | .error e => .letGo d ⟨[], .error e⟩
      (s.lock i d).setThread i { t with phase }
  | .move d rest =>
    let (progress, connection) := rest.step s.connection
    let phase : CallPhase := match progress with
      | .more rest => .move d rest
      | .finished result => .letGo d result
    { s with connection }.setThread i { t with phase }
  | .letGo d result =>
    (s.setHolder d none).setThread i
      { t with phase := .idle, returned := t.returned ++ [(d, result)] }

def step (s : ConnectionThreads) : ConnectionEvent → ConnectionThreads
  | .thread i =>
    match s.threads[i]? with
    | some t => s.stepThread i t
    | none => s
  | .invalidate => { s with connection := s.connection.invalidate.2 }

def run (s : ConnectionThreads) (events : List ConnectionEvent) : ConnectionThreads :=
  events.foldl step s

end ConnectionThreads

end ModuleLink
