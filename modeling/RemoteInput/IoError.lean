import RemoteInput.Event.Vocabulary

/-!
# Errors of the machine

Reading a stream, reading a file and binding an address may fail for reasons
that lie outside the host.  Such an error has a kind and the text that the
machine gives for it.  The host looks at the kind only once, to tell a missing
file from an unreadable one.
-/

namespace RemoteInput

/-- The kinds of errors that the machine reports. -/
inductive IoErrorKind where
  | notFound
  | permissionDenied
  | connectionRefused
  | connectionReset
  | connectionAborted
  | notConnected
  | addressInUse
  | addressNotAvailable
  | hostUnreachable
  | networkUnreachable
  | networkDown
  | brokenPipe
  | alreadyExists
  | wouldBlock
  | notADirectory
  | isADirectory
  | invalidInput
  | invalidFilename
  | invalidData
  | timedOut
  | writeZero
  | interrupted
  | unsupported
  | unexpectedEnd
  | outOfMemory
  | other
  deriving DecidableEq

instance : Vocabulary IoErrorKind where
  all :=
    [ .notFound, .permissionDenied, .connectionRefused, .connectionReset, .connectionAborted,
      .notConnected, .addressInUse, .addressNotAvailable, .hostUnreachable, .networkUnreachable,
      .networkDown, .brokenPipe, .alreadyExists, .wouldBlock, .notADirectory, .isADirectory,
      .invalidInput, .invalidFilename, .invalidData, .timedOut, .writeZero, .interrupted,
      .unsupported, .unexpectedEnd, .outOfMemory, .other ]
  wireName
    | .notFound => "NotFound"
    | .permissionDenied => "PermissionDenied"
    | .connectionRefused => "ConnectionRefused"
    | .connectionReset => "ConnectionReset"
    | .connectionAborted => "ConnectionAborted"
    | .notConnected => "NotConnected"
    | .addressInUse => "AddrInUse"
    | .addressNotAvailable => "AddrNotAvailable"
    | .hostUnreachable => "HostUnreachable"
    | .networkUnreachable => "NetworkUnreachable"
    | .networkDown => "NetworkDown"
    | .brokenPipe => "BrokenPipe"
    | .alreadyExists => "AlreadyExists"
    | .wouldBlock => "WouldBlock"
    | .notADirectory => "NotADirectory"
    | .isADirectory => "IsADirectory"
    | .invalidInput => "InvalidInput"
    | .invalidFilename => "InvalidFilename"
    | .invalidData => "InvalidData"
    | .timedOut => "TimedOut"
    | .writeZero => "WriteZero"
    | .interrupted => "Interrupted"
    | .unsupported => "Unsupported"
    | .unexpectedEnd => "UnexpectedEof"
    | .outOfMemory => "OutOfMemory"
    | .other => "Other"

/-- An error that the machine reports. -/
structure IoError where
  /-- Its kind. -/
  kind : IoErrorKind
  /-- Its text. -/
  message : String
  deriving DecidableEq

namespace IoError

/-- The file does not exist. -/
def notFound : IoError := ⟨.notFound, "No such file or directory (os error 2)"⟩

/-- A part of the path that should be a directory is a file. -/
def notADirectory : IoError := ⟨.notADirectory, "Not a directory (os error 20)"⟩

/-- The file is a directory. -/
def isADirectory : IoError := ⟨.isADirectory, "Is a directory (os error 21)"⟩

/-- The argument makes no sense. -/
def invalidArgument : IoError := ⟨.invalidInput, "Invalid argument (os error 22)"⟩

/-- The path, or a name in it, is longer than the machine allows. -/
def nameTooLong : IoError := ⟨.invalidFilename, "File name too long (os error 36)"⟩

/-- The path holds the character that ends a path. -/
def nulInPath : IoError := ⟨.invalidInput, "file name contained an unexpected NUL byte"⟩

/-- The file is not a text. -/
def notUtf8 : IoError := ⟨.invalidData, "stream did not contain valid UTF-8"⟩

/-- The address is held by another listener. -/
def addressInUse : IoError := ⟨.addressInUse, "Address already in use (os error 98)"⟩

/-- The machine does not have the address. -/
def addressNotAvailable : IoError :=
  ⟨.addressNotAvailable, "Cannot assign requested address (os error 99)"⟩

/-- No route leads to the address. -/
def networkUnreachable : IoError :=
  ⟨.networkUnreachable, "Network is unreachable (os error 101)"⟩

end IoError

end RemoteInput
