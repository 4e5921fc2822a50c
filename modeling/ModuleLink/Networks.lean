import ModuleLink.Connections
import ModuleLink.InternetAddresses
import ModuleLink.Targets

/-! # The network between machines -/
namespace ModuleLink

structure Network where
  /-- The addresses of the names that can be looked up. -/
  names : String → Option HostAddress
  /-- Why an address cannot be reached, if it cannot. -/
  refusal : InternetAddress → Option SystemError

namespace Network

/-- What a machine without any route says of an address: an address of one link needs a zone, and
from most groups there is no address of its own to start from. -/
def withoutRoute : HostAddress → SystemError
  | .bytes _ => .unreachable
  | .groups parts zone =>
    if (HostAddress.wrapped? parts).isSome ∨ parts.head?.any (0xff00 ≤ ·) then .unreachable
    else if HostAddress.isLinkLocal parts ∧ zone = 0 then .numbered 22
    else .numbered 99

def isolated : Network := ⟨fun _ => none, fun a => some (withoutRoute a.host)⟩

def connect (n : Network) (t : Target) : Except TransportError Connection := do
  let address ← resolve n.names t.host t.port
  match n.refusal address with
  | some cause => throw (.connect t.display cause)
  | none => return { name := address.text, kind := .tcp, peer := "tcp://" ++ address.text }

end Network

end ModuleLink
