import LiveMigration.DecodeError
import LiveMigration.Fault

/-!
What can go wrong while a dump travels from one node to another: a step on the network or on
a disk, a checksum, the seal of a frame, a refusal by the other side, or the form of a frame.
-/

namespace LiveMigration

namespace Transfer

inductive Step
  | connecting
  | listing
  | writingFrame
  | sendingFile
  | flushing
  | awaitingAck
  | readingLength
  | readingFrame
  | creatingDirectory
  | creatingFile
  | receivingFile
  | finalizing
  | replacingLink
  | creatingLink
  deriving DecidableEq, Repr

def Step.name : Step → String
  | connecting => "connecting to file transfer port"
  | listing => "listing dump directory"
  | writingFrame => "writing frame"
  | sendingFile => "sending dump file"
  | flushing => "flushing transfer"
  | awaitingAck => "waiting for transfer ack"
  | readingLength => "reading frame length"
  | readingFrame => "reading frame"
  | creatingDirectory => "creating dump directory"
  | creatingFile => "creating dump file"
  | receivingFile => "receiving dump file"
  | finalizing => "finalizing dump file"
  | replacingLink => "replacing parent link"
  | creatingLink => "creating parent link"

def maxHeader : Nat := 64 * 1024

inductive Malformation
  | tooLong (bytes : Nat)
  | undecodable (e : DecodeError)
  deriving DecidableEq, Repr

def Malformation.message : Malformation → String
  | tooLong bytes => s!"header of {bytes} bytes exceeds {maxHeader}"
  | undecodable e => e.message

end Transfer

inductive TransferError
  | io (step : Transfer.Step) (fault : Fault)
  | checksumMismatch (file : String) (expected actual : UInt32)
  | unauthenticated
  | rejected (name reason : String)
  | malformed (why : Transfer.Malformation)
  deriving DecidableEq, Repr

def showChecksum (n : UInt32) : String :=
  let digits := Nat.toDigits 16 n.toNat
  "0x" ++ String.ofList (List.replicate (8 - digits.length) '0' ++ digits)

def TransferError.message : TransferError → String
  | io step fault => s!"Transfer IO error: {step.name} - " ++ fault.message
  | checksumMismatch file expected actual =>
    s!"Checksum mismatch for {file}: expected " ++ showChecksum expected ++ ", got "
      ++ showChecksum actual
  | unauthenticated => "Transfer frame failed authentication"
  | rejected name reason => s!"Rejected transfer entry '{name}': {reason}"
  | malformed why => "Malformed transfer frame: " ++ why.message

end LiveMigration
