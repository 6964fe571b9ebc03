/-!
Faults of the operating system and of byte streams, with the words in which they are
reported.
-/

namespace LiveMigration

inductive OsError
  | noSuchEntry
  | noSuchDevice
  | permissionDenied
  | alreadyExists
  | notDirectory
  | isDirectory
  | invalidArgument
  | nameTooLong
  | notEmpty
  | tooManyLinks
  | addressInUse
  | addressNotAvailable
  | networkUnreachable
  | connectionRefused
  deriving DecidableEq, Repr

namespace OsError

def number : OsError → Nat
  | noSuchEntry => 2
  | noSuchDevice => 6
  | permissionDenied => 13
  | alreadyExists => 17
  | notDirectory => 20
  | isDirectory => 21
  | invalidArgument => 22
  | nameTooLong => 36
  | notEmpty => 39
  | tooManyLinks => 40
  | addressInUse => 98
  | addressNotAvailable => 99
  | networkUnreachable => 101
  | connectionRefused => 111

def description : OsError → String
  | noSuchEntry => "No such file or directory"
  | noSuchDevice => "No such device or address"
  | permissionDenied => "Permission denied"
  | alreadyExists => "File exists"
  | notDirectory => "Not a directory"
  | isDirectory => "Is a directory"
  | invalidArgument => "Invalid argument"
  | nameTooLong => "File name too long"
  | notEmpty => "Directory not empty"
  | tooManyLinks => "Too many levels of symbolic links"
  | addressInUse => "Address already in use"
  | addressNotAvailable => "Cannot assign requested address"
  | networkUnreachable => "Network is unreachable"
  | connectionRefused => "Connection refused"

def message (e : OsError) : String := s!"{e.description} (os error {e.number})"

end OsError

inductive Fault
  | os (e : OsError)
  | zeroByte
  | zeroByteInSocketPath
  | zeroByteInArgument
  /-- A socket path has at most 107 bytes. -/
  | longSocketPath
  | notText
  | earlyEnd
  | noReply
  /-- The peer made no progress within the given milliseconds. -/
  | stalled (ms : Nat)
  /-- A stream ended before all bytes of a file had arrived. -/
  | missing (bytes : Nat) (name : String)
  | addressWithoutPort
  | invalidPortNumber
  deriving DecidableEq, Repr

/-- A span of time in its largest unit: seconds, with a fraction if need be, or
milliseconds. -/
def showMilliseconds (ms : Nat) : String :=
  if ms = 0 then "0ns"
  else if ms < 1000 then s!"{ms}ms"
  else
    let fraction := ((Nat.toDigits 10 (1000 + ms % 1000)).drop 1).reverse.dropWhile (· == '0')
    if fraction.isEmpty then s!"{ms / 1000}s"
    else s!"{ms / 1000}." ++ String.ofList fraction.reverse ++ "s"

def Fault.message : Fault → String
  | os e => e.message
  | zeroByte => "file name contained an unexpected NUL byte"
  | zeroByteInSocketPath => "paths must not contain interior null bytes"
  | zeroByteInArgument => "nul byte found in provided data"
  | longSocketPath => "path must be shorter than SUN_LEN"
  | notText => "stream did not contain valid UTF-8"
  | earlyEnd => "early eof"
  | noReply => "connection closed without reply"
  | stalled ms => "replica stalled for " ++ showMilliseconds ms
  | missing bytes name => s!"{bytes} bytes of {name} missing"
  | addressWithoutPort => "invalid socket address"
  | invalidPortNumber => "invalid port value"

end LiveMigration
