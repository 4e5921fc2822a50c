import ModuleLink.PeerErrors

/-! # How a failed command ends

A failure is reported as an exit code and one line of text. -/
namespace ModuleLink

structure ExitReport where
  code : UInt32
  message : String
  deriving DecidableEq, Repr

namespace ExitReport

def generalFailure : UInt32 := 1
def transportFailure : UInt32 := 3
def failedHealthCheck : UInt32 := 30
def permissionDenied : UInt32 := 50
def invalidData : UInt32 := 60
def usage : UInt32 := 64
def timeout : UInt32 := 124
def internal : UInt32 := 125

def ofSystemError (context : String) (e : SystemError) : ExitReport where
  code := match e.kind with
    | .permissionDenied => permissionDenied
    | .timedOut | .wouldBlock => timeout
    | .connectionRefused => generalFailure
    | _ => internal
  message := s!"{context}: {e.message}"

def ofTransportError (context : String) : TransportError → ExitReport
  | .bind _ cause | .connect _ cause | .accept cause | .io cause => ofSystemError context cause
  | e@(.timedOut ..) => ⟨timeout, s!"{context}: {e.message}"⟩
  | e => ⟨transportFailure, s!"{context}: {e.message}"⟩

def ofFrameError (context : String) : FrameError → ExitReport
  | .transport cause => ofTransportError context cause
  | e => ⟨invalidData, s!"{context}: {e.message}"⟩

def ofPeerError (context : String) : PeerError → ExitReport
  | .transport cause => ofTransportError context cause
  | .frame cause => ofFrameError context cause
  | e =>
    let code := match e with
      | .timeout _ => timeout
      | .notConnected => transportFailure
      | .undefinedMessage _ | .noFormat _ => usage
      | .nullReply => invalidData
      | _ => internal
    ⟨code, s!"{context}: {e.message}"⟩

end ExitReport

end ModuleLink
