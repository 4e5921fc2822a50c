import ModuleLink.EnvelopeStreams

/-! # Connections

A connection is one end of a duplex channel. Once it is invalidated it refuses every call; a
socket's other end notices, a pipe's does not. -/
namespace ModuleLink

inductive ChannelKind | tcp | unix | pipe
  deriving DecidableEq, Repr

def ChannelKind.name : ChannelKind → String
  | tcp => "tcp"
  | unix => "unix"
  | pipe => "pipe"

structure Connection where
  /-- What error texts call it. -/
  name : String
  kind : ChannelKind
  /-- What it is connected to, for people to read. -/
  peer : String
  isOpen : Bool := true
  /-- Somebody else is reading. -/
  readHeld : Bool := false
  incoming : Source := { unread := [], exhaustion := .silent }
  outgoing : Sink := {}
  deriving DecidableEq, Repr

namespace Connection

def ensureOpen (c : Connection) : Except TransportError Unit :=
  if c.isOpen then .ok () else .error (.closed c.name)

/-- Takes the read side unless somebody else has it. -/
def tryReader (c : Connection) : Except TransportError Bool := do
  c.ensureOpen
  return !c.readHeld

def readExact (c : Connection) (length : Nat) : Filled × Connection :=
  match c.ensureOpen with
  | .error e => (⟨[], .error e⟩, c)
  | .ok () => let (filled, incoming) := c.incoming.readExact length; (filled, { c with incoming })

def readScattered (c : Connection) (first second : Nat) : Filled × Connection :=
  match c.ensureOpen with
  | .error e => (⟨[], .error e⟩, c)
  | .ok () =>
    let (filled, incoming) := c.incoming.readScattered first second
    (filled, { c with incoming })

def writeAll (c : Connection) (bytes : Bytes) : Except TransportError Unit × Connection :=
  match c.ensureOpen with
  | .error e => (.error e, c)
  | .ok () => let (result, outgoing) := c.outgoing.writeAll bytes; (result, { c with outgoing })

def writeVectored (c : Connection) (segments : List Bytes) (expected : Nat) :
    Except TransportError Unit × Connection :=
  match c.ensureOpen with
  | .error e => (.error e, c)
  | .ok () =>
    let (result, outgoing) := c.outgoing.writeVectored segments expected
    (result, { c with outgoing })

def send (c : Connection) (m : Envelope) : Except FrameError Unit × Connection :=
  let (result, c) := c.writeVectored m.segments m.wireLength
  (result.mapError .transport, c)

def receive (c : Connection) (limits : Limits) : Except FrameError Envelope × Connection :=
  match c.ensureOpen with
  | .error e => (.error (.transport e), c)
  | .ok () =>
    let (result, incoming) := ModuleLink.receive c.incoming limits
    (result, { c with incoming })

/-- A read would not have to wait. -/
def isReadable (c : Connection) : Bool :=
  c.incoming.unread ≠ [] ∨ c.incoming.exhaustion = .ended ∨ (!c.isOpen ∧ c.kind ≠ .pipe)

/-- Marks the connection dead; false if it was dead already. -/
def invalidate (c : Connection) : Bool × Connection := (c.isOpen, { c with isOpen := false })

/-- Marks the connection dead while somebody reads so much of it; true if that read failed. One that
waits on a pipe goes on waiting. -/
def invalidateReading (c : Connection) (length : Nat) : Bool × Connection :=
  let (filled, c) := c.readExact length
  let failed := match filled.result with
    | .ok () => false
    | .error e => !(e.isTimeout && c.kind = .pipe)
  (failed, c.invalidate.2)

/-! The other end of the channel. -/

/-- The other end writes; it cannot after it closed its side, and not a byte on a socket that was
shut down here. -/
def peerWrites (c : Connection) (bytes : Bytes) : Bool × Connection :=
  if c.incoming.exhaustion = .ended ∨ (bytes ≠ [] ∧ !c.isOpen ∧ c.kind ≠ .pipe) then (false, c)
  else (true, { c with incoming := { c.incoming with unread := c.incoming.unread ++ bytes } })

/-- The other end takes everything that was written so far. -/
def peerTakes (c : Connection) : Bytes × Connection :=
  (c.outgoing.written, { c with outgoing := { c.outgoing with written := [] } })

def peerStopsWriting (c : Connection) : Connection :=
  { c with incoming := { c.incoming with exhaustion := .ended } }

/-- The other end takes what it has not read yet and leaves. -/
def peerCloses (c : Connection) : Connection :=
  { c.peerTakes.2.peerStopsWriting with outgoing := { c.outgoing with written := [], gone := true } }

end Connection

end ModuleLink
