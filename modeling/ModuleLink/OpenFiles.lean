import ModuleLink.ByteSinks
import ModuleLink.ByteSources
import ModuleLink.EndpointDirectories

/-! # Open files

A pipe has an end as long as some open file reads from it or writes to it; when the last one is
closed, what it held is lost. Files are opened without waiting for the other end. -/
namespace ModuleLink

namespace FileSystem

def hasReader (s : FileSystem) (n : Nat) : Bool :=
  s.opened.any fun file => file.any fun f => f.node = n && f.reads

def hasWriter (s : FileSystem) (n : Nat) : Bool :=
  s.opened.any fun file => file.any fun f => f.node = n && f.writes

def openNode (s : FileSystem) (n : Nat) (reads writes : Bool) : Nat × FileSystem :=
  (s.opened.length, { s with opened := s.opened ++ [some ⟨n, reads, writes, 0⟩] })

def openFile (s : FileSystem) (path : Path) (reads writes : Bool) :
    Except SystemError (Nat × FileSystem) := do
  let (n, node) ← s.find path
  if writes && node.isDirectory then throw isDirectory
  if reads && !node.allows .read || writes && !node.allows .write then throw denied
  if node.isSocket then throw .noReader
  if writes && !reads && node.isPipe && !s.hasReader n then throw .noReader
  return s.openNode n reads writes

/-- An open file and what it leads to. -/
def opened? (s : FileSystem) (file : Nat) : Option (OpenFile × FileNode) := do
  let f ← (s.opened[file]?).join
  return (f, ← s.nodes[f.node]?)

def close (s : FileSystem) (file : Nat) : FileSystem :=
  let closed : FileSystem := { s with opened := s.opened.set file none }
  match s.opened? file with
  | some (f, .pipe mode _) =>
    if closed.hasReader f.node || closed.hasWriter f.node then closed
    else closed.setNode f.node (.pipe mode [])
  | _ => closed

/-- What an open file can give, and silence if somebody may still write. -/
def source (s : FileSystem) (file : Nat) : Source :=
  match s.opened? file with
  | some (f, .pipe _ content) =>
    { unread := content, exhaustion := if s.hasWriter f.node then .silent else .ended }
  | some (f, .regular content) => { unread := content.drop f.offset }
  | _ => { unread := [] }

/-- The same file after a reader left so much unread. -/
def leaveUnread (s : FileSystem) (file : Nat) (rest : Bytes) : FileSystem :=
  match s.opened? file with
  | some (f, .pipe mode _) => s.setNode f.node (.pipe mode rest)
  | some (f, .regular content) =>
    { s with opened := s.opened.set file (some { f with offset := content.length - rest.length }) }
  | _ => s

/-- Where writes to an open file go; a pipe that nobody reads refuses them. -/
def sink (s : FileSystem) (file : Nat) : Sink :=
  match s.opened? file with
  | some (f, .pipe ..) => { gone := !s.hasReader f.node }
  | some _ => {}
  | none => { gone := true }

def put (s : FileSystem) (file : Nat) (bytes : Bytes) : FileSystem :=
  match s.opened? file with
  | some (f, .pipe mode content) => s.setNode f.node (.pipe mode (content ++ bytes))
  | some (f, .regular content) =>
    let changed := content.take f.offset ++ bytes ++ content.drop (f.offset + bytes.length)
    { s.setNode f.node (.regular changed) with
      opened := s.opened.set file (some { f with offset := f.offset + bytes.length }) }
  | _ => s

def readExact (s : FileSystem) (file length : Nat) : Filled × FileSystem :=
  let (filled, source) := (s.source file).readExact length
  (filled, s.leaveUnread file source.unread)

def writeAll (s : FileSystem) (file : Nat) (bytes : Bytes) :
    Except TransportError Unit × FileSystem :=
  let (result, sink) := (s.sink file).writeAll bytes
  (result, s.put file sink.written)

end FileSystem

namespace Link

def read (l : Link) (length : Nat) (s : FileSystem) : Filled × FileSystem := s.readExact l.reader length

def write (l : Link) (bytes : Bytes) (s : FileSystem) : Except TransportError Unit × FileSystem :=
  s.writeAll l.writer bytes

def close (l : Link) (s : FileSystem) : FileSystem := (s.close l.reader).close l.writer

end Link

end ModuleLink
