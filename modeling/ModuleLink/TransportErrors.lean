import ModuleLink.QuotedText
import ModuleLink.SystemErrors

/-! # What can go wrong on the way to another module -/
namespace ModuleLink

inductive TransportError
  | bind (address : String) (cause : SystemError)
  | connect (target : String) (cause : SystemError)
  | resolve (host : String) (cause : SystemError)
  | invalidTarget (text : String)
  | accept (cause : SystemError)
  | endOfStream (expected received : Nat)
  | timedOut (expected received : Nat)
  | brokenPipe
  | writeZero
  | lengthMismatch (expected actual : Nat)
  | io (cause : SystemError)
  | pathTooLong (path : String) (length limit : Nat)
  | closed (connection : String)
  deriving DecidableEq, Repr

namespace TransportError

def label : TransportError → String
  | bind .. => "Bind"
  | connect .. => "Connect"
  | resolve .. => "Resolve"
  | invalidTarget _ => "InvalidTarget"
  | accept _ => "Accept"
  | endOfStream .. => "Eof"
  | timedOut .. => "TimedOut"
  | brokenPipe => "BrokenPipe"
  | writeZero => "WriteZero"
  | lengthMismatch .. => "LengthMismatch"
  | io _ => "Io"
  | pathTooLong .. => "PathTooLong"
  | closed _ => "Closed"

def message : TransportError → String
  | bind address cause => s!"failed to bind to {address}: {cause.message}"
  | connect target cause => s!"failed to connect to {target}: {cause.message}"
  | resolve host cause => s!"failed to resolve host {host}: {cause.message}"
  | invalidTarget text => s!"invalid target {quoted text} (expected host or host:port)"
  | accept cause => s!"failed to accept connection: {cause.message}"
  | endOfStream expected received => s!"connection closed after {received} of {expected} bytes"
  | timedOut expected received => s!"timed out after {received} of {expected} bytes"
  | brokenPipe => "pipe broken"
  | writeZero => "stream accepted no bytes"
  | lengthMismatch expected actual =>
    s!"internal error: segment lengths sum to {actual}, expected {expected}"
  | io cause => s!"transport I/O error: {cause.message}"
  | pathTooLong path length limit =>
    s!"socket path too long ({length} bytes, max {limit}): {path}"
  | closed connection => s!"connection {connection} is closed"

/-- The other side is gone. -/
def isDisconnect : TransportError → Bool
  | endOfStream .. | brokenPipe | writeZero | closed _ => true
  | _ => false

/-- A read gave up at its deadline. -/
def isTimeout : TransportError → Bool
  | timedOut .. => true
  | _ => false

def isBrokenPipe : TransportError → Bool
  | brokenPipe => true
  | _ => false

end TransportError

end ModuleLink
