import ModuleLink.Connections
import ModuleLink.EndpointPaths

/-! # What a name in a directory can lead to -/
namespace ModuleLink

/-- One end of an established channel: the open files it reads from and writes to. -/
structure Link where
  kind : ChannelKind
  peer : String
  reader : Nat
  writer : Nat
  deriving DecidableEq, Repr

inductive FileNode
  | directory (mode : Nat)
  /-- A directory of somebody else, who refuses whatever is to be made in it. -/
  | sealedDirectory (mode : Nat) (refusal : SystemError)
  | regular (content : Bytes)
  | pipe (mode : Nat) (content : Bytes)
  /-- A socket and, while somebody listens on it, the links that wait to be accepted. -/
  | socket (mode : Nat) (waiting : Option (List Link))
  deriving DecidableEq, Repr

/-- What a process can ask for; searching is what the way through a directory takes. -/
inductive Access | read | write | search
  deriving DecidableEq, Repr

/-- The permission of an owner. -/
def Access.bit : Access → Nat
  | read => 0o400
  | write => 0o200
  | search => 0o100

namespace FileNode

def isDirectory : FileNode → Bool
  | directory _ | sealedDirectory .. => true
  | _ => false

def isSocket : FileNode → Bool
  | socket .. => true
  | _ => false

def isPipe : FileNode → Bool
  | pipe .. => true
  | _ => false

/-- A mode counts up to the bits that no permission uses. -/
def withMode (mode : Nat) : FileNode → FileNode
  | directory _ => directory (mode &&& 0o7777)
  | pipe _ content => pipe (mode &&& 0o7777) content
  | socket _ waiting => socket (mode &&& 0o7777) waiting
  | node => node

/-- What is sealed belongs to somebody else; the rest belongs to whoever asks. -/
def allows (access : Access) : FileNode → Bool
  | directory mode | pipe mode _ | socket mode _ => mode &&& access.bit ≠ 0
  | sealedDirectory mode _ => mode &&& access.bit / 64 ≠ 0
  | regular _ => true

/-- Nobody may write to it. -/
def isReadOnly : FileNode → Bool
  | directory mode | sealedDirectory mode _ => mode &&& 0o222 = 0
  | _ => false

end FileNode

end ModuleLink
