import ModuleLink.SendCommand

/-! # Printing the envelopes that arrive

Connections are served one after the other, each until its peer closes it. -/
namespace ModuleLink

/-- An envelope that was printed, and who sent it. -/
structure Heard where
  peer : String
  envelope : Envelope
  deriving DecidableEq, Repr

/-- Why nothing more is read for now. -/
inductive Pause
  /-- As many envelopes were printed as were asked for. -/
  | counted
  | peerClosed
  /-- The peer is silent. -/
  | waiting
  | failed (cause : FrameError)
  deriving DecidableEq, Repr

/-- What becomes of an envelope that arrives: whether it is printed, how many are printed then, and
whether those are enough. -/
structure Handled where
  prints : Bool
  printed : Nat
  enough : Bool

namespace ListenOptions

def passes (o : ListenOptions) (m : Envelope) : Bool := o.classes.all (m.classId ∈ ·)

/-- How many envelopes were printed after some more; the count stops at the largest one. -/
def counted (printed more : Nat) : Nat := min CommandLine.largestCount (printed + more)

/-- So many envelopes are enough; it is asked after each one that is printed. -/
def isEnough (o : ListenOptions) (printed : Nat) : Bool := o.count.any (· ≤ printed)

/-- Handles an envelope after so many were printed. -/
def handle (o : ListenOptions) (printed : Nat) (m : Envelope) : Handled :=
  if o.passes m then ⟨true, counted printed 1, o.isEnough (counted printed 1)⟩
  else ⟨false, printed, false⟩

/-- Reads one connection, after so many envelopes were printed. -/
def hear (o : ListenOptions) (peer : String) (printed : Nat) (s : Source) : List Heard × Pause :=
  match _ : receive s {} with
  | (.ok m, t) =>
    let handled := o.handle printed m
    let heard := if handled.prints then [⟨peer, m⟩] else []
    if handled.enough then (heard, .counted)
    else
      let (more, pause) := hear o peer handled.printed t
      (heard ++ more, pause)
  | (.error e, t) =>
    if e.isDisconnect then ([], .peerClosed)
    else if e.isTimeout ∧ t.turns = [] ∧ t.exhaustion = .silent then ([], .waiting)
    else ([], .failed e)
termination_by s.work
decreasing_by
  all_goals exact receive_work_lt ‹_›

/-- Reads connections in the order in which they are accepted. -/
def hearAll (o : ListenOptions) (printed : Nat) : List Connection → List Heard × Pause
  | [] => ([], .waiting)
  | c :: rest =>
    match o.hear c.peer printed c.incoming with
    | (heard, .peerClosed) =>
      let (more, pause) := hearAll o (counted printed heard.length) rest
      (heard ++ more, pause)
    | stopped => stopped

def view (o : ListenOptions) : PayloadView := if o.integers then .integers else .text

def report (o : ListenOptions) (format : ReportFormat) (now : Nat) (heard : List Heard) : Bytes :=
  heard.flatMap fun h => h.envelope.report h.peer o.view now format

/-- Listens while these connections arrive. -/
def run (o : ListenOptions) (format : ReportFormat) (now : Nat) (arrivals : List Connection) :
    StateM Machine Finished := do
  match ← (Machine.listen o.port o.within.settings).run with
  | .error e => return (ExitReport.ofTransportError "bind failed" e).finished
  | .ok id =>
    let (heard, pause) := o.hearAll 0 arrivals
    Machine.closeListener id
    let output := o.report format now heard
    match pause with
    | .failed e => return (ExitReport.ofFrameError "receive failed" e).finished output
    | _ => return { output }

end ListenOptions

end ModuleLink
