import LiveMigration.Control.Command
import LiveMigration.Disk.Basic
import LiveMigration.Rpc.Call

/-!
The control socket. One command per connection, one line in answer: `OK`, or `ERR` and the
reason. The socket replaces whatever was left behind under its name, and only its owner may
use it.
-/

namespace LiveMigration.Control

open Rpc (firstLine newline)

/-- Only the owner reads and writes. -/
def socketMode : Nat := 0o600

abbrev Handler (σ : Type) := Command → σ → Except ControlError Unit × σ

def answerLine : Except ControlError Unit → Bytes
  | .ok () => Bytes.ofText "OK" ++ [newline]
  | .error e => Bytes.ofText ("ERR " ++ e.answer) ++ [newline]

/-- What a node writes back to someone who wrote the given bytes and then waits. Bytes that
are no text end the connection. -/
def serve (handle : Handler σ) (input : Bytes) (s : σ) : Bytes × σ :=
  match Bytes.text? (firstLine input) with
  | none => ([], s)
  | some line =>
    match Command.ofText (Text.trim line) with
    | .error e => (answerLine (.error e), s)
    | .ok command =>
      let (result, s) := handle command s
      (answerLine result, s)

def request (command : Command) : Bytes := Bytes.ofText command.toText ++ [newline]

def errorMark : List Char := "ERR ".toList

/-- The reason in an answer; an answer that is no error line is all reason. -/
def reasonIn (line : String) : String :=
  if errorMark.isPrefixOf line.toList then String.ofList (line.toList.drop errorMark.length)
  else line

def resultOf (path : Path) (answer : Bytes) : Except ControlError Unit :=
  match Bytes.text? (firstLine answer) with
  | none => .error (.socket path .notText)
  | some line =>
    let line := Text.trim line
    if line = "OK" then .ok () else .error (.refused (reasonIn line))

def send (path : Path) (command : Command) (peer : Except Fault (Bytes → σ → Bytes × σ)) (s : σ) :
    Except ControlError Unit × σ :=
  match peer with
  | .error fault => (.error (.socket path fault), s)
  | .ok exchange =>
    let (answer, s) := exchange (request command) s
    (resultOf path answer, s)

/-- Binds the socket in place of a stale one. -/
def bind (d : Disk) (path : Path) : Except ControlError Unit × Disk :=
  let made := match path.parent? with
    | some outer => d.createDirectories outer
    | none => (.ok (), d)
  match made with
  | (.error fault, d) => (.error (.socket path fault), d)
  | (.ok (), d) =>
    let d := (d.removeFile path).toOption.getD d
    match d.bindSocket path with
    | .ok d => (.ok (), d)
    | .error fault => (.error (.socket path fault), d)

def unbind (d : Disk) (path : Path) : Disk := (d.removeFile path).toOption.getD d

end LiveMigration.Control
