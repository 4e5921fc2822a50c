import ModuleLink.FrameErrors
import ModuleLink.Spans

/-! # What a module is told about an operation -/
namespace ModuleLink

/-- Names one use of one slot of a reference table. -/
structure Handle where
  index : Nat
  generation : UInt32
  deriving DecidableEq, Repr

def Handle.text (h : Handle) : String :=
  "RefHandle \x7b index: " ++ toString h.index ++ ", generation: " ++ toString h.generation ++ " \x7d"

inductive PeerError
  | transport (cause : TransportError)
  | frame (cause : FrameError)
  | notConnected
  | undefinedMessage (name : String)
  | staleReference (handle : Handle)
  | badReference (id : Int32)
  | noFormat (name : String)
  | timeout (after : Span)
  | nullReply
  deriving DecidableEq, Repr

namespace PeerError

def label : PeerError → String
  | transport cause => "Transport." ++ cause.label
  | frame cause => "Frame." ++ cause.label
  | notConnected => "NotConnected"
  | undefinedMessage _ => "UndefinedMessage"
  | staleReference _ => "StaleReference"
  | badReference _ => "BadReference"
  | noFormat _ => "NoFormat"
  | timeout _ => "Timeout"
  | nullReply => "NullReply"

def message : PeerError → String
  | transport cause => s!"transport error: {cause.message}"
  | frame cause => s!"frame error: {cause.message}"
  | notConnected => "not connected to the router"
  | undefinedMessage name => s!"message {quoted name} is not defined"
  | staleReference handle => s!"reference {handle.text} has been released"
  | badReference id => s!"badly formed reference {id.toInt}"
  | noFormat name => s!"message {quoted name} has no data format"
  | timeout after => s!"no reply after {after.text}"
  | nullReply => "null reply"

def isBrokenPipe : PeerError → Bool
  | transport cause => cause.isBrokenPipe
  | frame cause => cause.isBrokenPipe
  | _ => false

def isDisconnect : PeerError → Bool
  | transport cause => cause.isDisconnect
  | frame cause => cause.isDisconnect
  | _ => false

end PeerError

/-- What a caller needs in order to decide what to do next. -/
inductive Outcome | success | failure | timedOut | nullReply | messageUndefined
  deriving DecidableEq, Repr

namespace Outcome

def ofError : PeerError → Outcome
  | .timeout _ => .timedOut
  | .nullReply => .nullReply
  | .undefinedMessage _ => .messageUndefined
  | _ => .failure

def of {α : Type} : Except PeerError α → Outcome
  | .ok _ => .success
  | .error e => .ofError e

def text : Outcome → String
  | success => "success"
  | failure => "failure"
  | timedOut => "timed out"
  | nullReply => "null reply"
  | messageUndefined => "message undefined"

def label : Outcome → String
  | success => "Success"
  | failure => "Failure"
  | timedOut => "TimedOut"
  | nullReply => "NullReply"
  | messageUndefined => "MsgUndefined"

end Outcome

end ModuleLink
