import ModuleLink.SystemErrorTexts

/-! # Errors of the operating system

An I/O call fails with an error number, with a bare kind, or with a kind and a text of the
caller's own. Every error number has a kind. -/
namespace ModuleLink

inductive ErrorKind
  | notFound | permissionDenied | connectionRefused | connectionReset | hostUnreachable |
  networkUnreachable | connectionAborted | notConnected | addrInUse | addrNotAvailable |
  networkDown | brokenPipe | alreadyExists | wouldBlock | notADirectory | isADirectory |
  directoryNotEmpty | readOnlyFilesystem | filesystemLoop | staleNetworkFileHandle | invalidInput |
  invalidData | timedOut | writeZero | storageFull | notSeekable | quotaExceeded | fileTooLarge
  | resourceBusy | executableFileBusy | deadlock | crossesDevices | tooManyLinks | invalidFilename |
  argumentListTooLong | interrupted | unsupported | unexpectedEof | outOfMemory | inProgress |
  other | uncategorized
  deriving DecidableEq, Repr

namespace ErrorKind

def description : ErrorKind → String
  | notFound => "entity not found"
  | permissionDenied => "permission denied"
  | connectionRefused => "connection refused"
  | connectionReset => "connection reset"
  | hostUnreachable => "host unreachable"
  | networkUnreachable => "network unreachable"
  | connectionAborted => "connection aborted"
  | notConnected => "not connected"
  | addrInUse => "address in use"
  | addrNotAvailable => "address not available"
  | networkDown => "network down"
  | brokenPipe => "broken pipe"
  | alreadyExists => "entity already exists"
  | wouldBlock => "operation would block"
  | notADirectory => "not a directory"
  | isADirectory => "is a directory"
  | directoryNotEmpty => "directory not empty"
  | readOnlyFilesystem => "read-only filesystem or storage medium"
  | filesystemLoop => "filesystem loop or indirection limit (e.g. symlink loop)"
  | staleNetworkFileHandle => "stale network file handle"
  | invalidInput => "invalid input parameter"
  | invalidData => "invalid data"
  | timedOut => "timed out"
  | writeZero => "write zero"
  | storageFull => "no storage space"
  | notSeekable => "seek on unseekable file"
  | quotaExceeded => "quota exceeded"
  | fileTooLarge => "file too large"
  | resourceBusy => "resource busy"
  | executableFileBusy => "executable file busy"
  | deadlock => "deadlock"
  | crossesDevices => "cross-device link or rename"
  | tooManyLinks => "too many links"
  | invalidFilename => "invalid filename"
  | argumentListTooLong => "argument list too long"
  | interrupted => "operation interrupted"
  | unsupported => "unsupported"
  | unexpectedEof => "unexpected end of file"
  | outOfMemory => "out of memory"
  | inProgress => "in progress"
  | other => "other error"
  | uncategorized => "uncategorized error"

def ofNumber : Int → ErrorKind
  | 1 => .permissionDenied
  | 2 => .notFound
  | 4 => .interrupted
  | 7 => .argumentListTooLong
  | 11 => .wouldBlock
  | 12 => .outOfMemory
  | 13 => .permissionDenied
  | 16 => .resourceBusy
  | 17 => .alreadyExists
  | 18 => .crossesDevices
  | 20 => .notADirectory
  | 21 => .isADirectory
  | 22 => .invalidInput
  | 26 => .executableFileBusy
  | 27 => .fileTooLarge
  | 28 => .storageFull
  | 29 => .notSeekable
  | 30 => .readOnlyFilesystem
  | 31 => .tooManyLinks
  | 32 => .brokenPipe
  | 35 => .deadlock
  | 36 => .invalidFilename
  | 38 => .unsupported
  | 39 => .directoryNotEmpty
  | 40 => .filesystemLoop
  | 95 => .unsupported
  | 98 => .addrInUse
  | 99 => .addrNotAvailable
  | 100 => .networkDown
  | 101 => .networkUnreachable
  | 103 => .connectionAborted
  | 104 => .connectionReset
  | 107 => .notConnected
  | 110 => .timedOut
  | 111 => .connectionRefused
  | 113 => .hostUnreachable
  | 115 => .inProgress
  | 116 => .staleNetworkFileHandle
  | 122 => .quotaExceeded
  | _ => .uncategorized

end ErrorKind

inductive SystemError
  | bare (kind : ErrorKind)
  | described (kind : ErrorKind) (text : String)
  | numbered (number : Int)
  deriving DecidableEq, Repr

namespace SystemError

def kind : SystemError → ErrorKind
  | bare k => k
  | described k _ => k
  | numbered n => .ofNumber n

def message : SystemError → String
  | bare k => k.description
  | described _ text => text
  | numbered n => systemErrorText n ++ " (os error " ++ toString n ++ ")"

def noEntry : SystemError := .numbered 2
def noReader : SystemError := .numbered 6
def notDirectory : SystemError := .numbered 20
def unreachable : SystemError := .numbered 101

end SystemError

/-- Names end at a null character, so they cannot hold one. -/
def nullInName : SystemError :=
  .described .invalidInput "file name contained an unexpected NUL byte"

end ModuleLink
