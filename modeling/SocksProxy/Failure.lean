import SocksProxy.Codes

/-!
# Failures

What can go wrong, by cause. A failure of input or output has a kind; one that
the system reports has its error number, which decides the kind and keeps apart
causes of one kind.
-/

namespace SocksProxy

inductive IoKind where
  | notFound
  | permissionDenied
  | connectionRefused
  | connectionReset
  | hostUnreachable
  | networkUnreachable
  | connectionAborted
  | notConnected
  | addrInUse
  | addrNotAvailable
  | networkDown
  | brokenPipe
  | alreadyExists
  | wouldBlock
  | notADirectory
  | isADirectory
  | directoryNotEmpty
  | readOnlyFilesystem
  | filesystemLoop
  | staleNetworkFileHandle
  | invalidInput
  | invalidData
  | timedOut
  | writeZero
  | storageFull
  | notSeekable
  | quotaExceeded
  | fileTooLarge
  | resourceBusy
  | executableFileBusy
  | deadlock
  | crossesDevices
  | tooManyLinks
  | invalidFilename
  | argumentListTooLong
  | interrupted
  | unsupported
  | unexpectedEof
  | outOfMemory
  | inProgress
  | inputOutputError
  | tooManyOpenFiles
  | uncategorized
  | other
  deriving DecidableEq, Repr

namespace IoKind

def all : List IoKind := [
  .notFound, .permissionDenied, .connectionRefused, .connectionReset, .hostUnreachable,
  .networkUnreachable, .connectionAborted, .notConnected, .addrInUse, .addrNotAvailable,
  .networkDown, .brokenPipe, .alreadyExists, .wouldBlock, .notADirectory, .isADirectory,
  .directoryNotEmpty, .readOnlyFilesystem, .filesystemLoop, .staleNetworkFileHandle,
  .invalidInput, .invalidData, .timedOut, .writeZero, .storageFull, .notSeekable,
  .quotaExceeded, .fileTooLarge, .resourceBusy, .executableFileBusy, .deadlock, .crossesDevices,
  .tooManyLinks, .invalidFilename, .argumentListTooLong, .interrupted, .unsupported,
  .unexpectedEof, .outOfMemory, .inProgress, .inputOutputError, .tooManyOpenFiles,
  .uncategorized, .other]

def name : IoKind → Text
  | .notFound => "NotFound".toList
  | .permissionDenied => "PermissionDenied".toList
  | .connectionRefused => "ConnectionRefused".toList
  | .connectionReset => "ConnectionReset".toList
  | .hostUnreachable => "HostUnreachable".toList
  | .networkUnreachable => "NetworkUnreachable".toList
  | .connectionAborted => "ConnectionAborted".toList
  | .notConnected => "NotConnected".toList
  | .addrInUse => "AddrInUse".toList
  | .addrNotAvailable => "AddrNotAvailable".toList
  | .networkDown => "NetworkDown".toList
  | .brokenPipe => "BrokenPipe".toList
  | .alreadyExists => "AlreadyExists".toList
  | .wouldBlock => "WouldBlock".toList
  | .notADirectory => "NotADirectory".toList
  | .isADirectory => "IsADirectory".toList
  | .directoryNotEmpty => "DirectoryNotEmpty".toList
  | .readOnlyFilesystem => "ReadOnlyFilesystem".toList
  | .filesystemLoop => "FilesystemLoop".toList
  | .staleNetworkFileHandle => "StaleNetworkFileHandle".toList
  | .invalidInput => "InvalidInput".toList
  | .invalidData => "InvalidData".toList
  | .timedOut => "TimedOut".toList
  | .writeZero => "WriteZero".toList
  | .storageFull => "StorageFull".toList
  | .notSeekable => "NotSeekable".toList
  | .quotaExceeded => "QuotaExceeded".toList
  | .fileTooLarge => "FileTooLarge".toList
  | .resourceBusy => "ResourceBusy".toList
  | .executableFileBusy => "ExecutableFileBusy".toList
  | .deadlock => "Deadlock".toList
  | .crossesDevices => "CrossesDevices".toList
  | .tooManyLinks => "TooManyLinks".toList
  | .invalidFilename => "InvalidFilename".toList
  | .argumentListTooLong => "ArgumentListTooLong".toList
  | .interrupted => "Interrupted".toList
  | .unsupported => "Unsupported".toList
  | .unexpectedEof => "UnexpectedEof".toList
  | .outOfMemory => "OutOfMemory".toList
  | .inProgress => "InProgress".toList
  | .inputOutputError => "InputOutputError".toList
  | .tooManyOpenFiles => "TooManyOpenFiles".toList
  | .uncategorized => "Uncategorized".toList
  | .other => "Other".toList

def ofName? (t : Text) : Option IoKind := all.find? fun k => k.name = t

end IoKind

inductive Errno where
  | eperm
  | eacces
  | eintr
  | eio
  | ebadf
  | enomem
  | einval
  | emfile
  | enfile
  | enospc
  | epipe
  | eproto
  | enotsock
  | eopnotsupp
  | eaddrinuse
  | eaddrnotavail
  | enetdown
  | enetunreach
  | econnaborted
  | econnreset
  | enobufs
  | enotconn
  | etimedout
  | econnrefused
  | ehostunreach
  deriving DecidableEq, Repr

namespace Errno

def all : List Errno := [
  .eperm, .eacces, .eintr, .eio, .ebadf, .enomem, .einval, .emfile, .enfile, .enospc, .epipe,
  .eproto, .enotsock, .eopnotsupp, .eaddrinuse, .eaddrnotavail, .enetdown, .enetunreach,
  .econnaborted, .econnreset, .enobufs, .enotconn, .etimedout, .econnrefused, .ehostunreach]

def name : Errno → Text
  | .eperm => "EPERM".toList
  | .eacces => "EACCES".toList
  | .eintr => "EINTR".toList
  | .eio => "EIO".toList
  | .ebadf => "EBADF".toList
  | .enomem => "ENOMEM".toList
  | .einval => "EINVAL".toList
  | .emfile => "EMFILE".toList
  | .enfile => "ENFILE".toList
  | .enospc => "ENOSPC".toList
  | .epipe => "EPIPE".toList
  | .eproto => "EPROTO".toList
  | .enotsock => "ENOTSOCK".toList
  | .eopnotsupp => "EOPNOTSUPP".toList
  | .eaddrinuse => "EADDRINUSE".toList
  | .eaddrnotavail => "EADDRNOTAVAIL".toList
  | .enetdown => "ENETDOWN".toList
  | .enetunreach => "ENETUNREACH".toList
  | .econnaborted => "ECONNABORTED".toList
  | .econnreset => "ECONNRESET".toList
  | .enobufs => "ENOBUFS".toList
  | .enotconn => "ENOTCONN".toList
  | .etimedout => "ETIMEDOUT".toList
  | .econnrefused => "ECONNREFUSED".toList
  | .ehostunreach => "EHOSTUNREACH".toList

def ofName? (t : Text) : Option Errno := all.find? fun e => e.name = t

def kind : Errno → IoKind
  | .eperm | .eacces => .permissionDenied
  | .eintr => .interrupted
  | .eio => .inputOutputError
  | .emfile | .enfile => .tooManyOpenFiles
  | .ebadf | .eproto | .enotsock | .enobufs => .uncategorized
  | .enomem => .outOfMemory
  | .einval => .invalidInput
  | .enospc => .storageFull
  | .epipe => .brokenPipe
  | .eopnotsupp => .unsupported
  | .eaddrinuse => .addrInUse
  | .eaddrnotavail => .addrNotAvailable
  | .enetdown => .networkDown
  | .enetunreach => .networkUnreachable
  | .econnaborted => .connectionAborted
  | .econnreset => .connectionReset
  | .enotconn => .notConnected
  | .etimedout => .timedOut
  | .econnrefused => .connectionRefused
  | .ehostunreach => .hostUnreachable

end Errno

inductive IoError where
  | raised (kind : IoKind)
  | reported (errno : Errno)
  deriving DecidableEq, Repr

def IoError.kind : IoError → IoKind
  | .raised kind => kind
  | .reported errno => errno.kind

inductive Error where
  | invalidVersion (version : UInt8)
  | noAcceptableMethod
  | addressTypeNotSupported (code : UInt8)
  | invalidAddress (text : Text)
  | invalidPort (text : Text)
  | shortBuffer (required available : Nat)
  | invalidSubnegotiationVersion (version : UInt8)
  | authenticationFailed
  | serverClosed
  | unresolvedName (name : Text)
  | commandNotSupported (command : Command)
  | io (error : IoError)
  deriving DecidableEq, Repr

namespace Error

/-- The text of a failure. One of input or output is told by its kind alone. -/
def message : Error → Text
  | .invalidVersion version => "invalid SOCKS version ".toList ++ Hex.octet version
  | .noAcceptableMethod => "unable to agree on authentication method".toList
  | .addressTypeNotSupported code =>
    "address type ".toList ++ Hex.octet code ++ " is not supported".toList
  | .invalidAddress text => "invalid address '".toList ++ text ++ ['\'']
  | .invalidPort text => "invalid port number '".toList ++ text ++ ['\'']
  | .shortBuffer required available =>
    "short buffer: ".toList ++ Decimal.text required ++ " bytes required, ".toList ++
      Decimal.text available ++ " available".toList
  | .invalidSubnegotiationVersion version =>
    "invalid subnegotiation version ".toList ++ Hex.octet version
  | .authenticationFailed => "authentication failed".toList
  | .serverClosed => "server closed".toList
  | .unresolvedName name => "unable to resolve domain name ".toList ++ name
  | .commandNotSupported command =>
    "command ".toList ++ command.text ++ " is not supported".toList
  | .io error => error.kind.name

end Error

end SocksProxy
