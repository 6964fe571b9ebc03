import LiveMigration.CommandLine.Execute

/-!
The program. It reads the one file that a call may name and prints the report of the call;
all that a report says is decided elsewhere. This build reaches no other machine and starts
no process, so a node cannot be run with it.
-/

namespace LiveMigration.CommandLine

/-- Nothing can be reached, and nothing can be started. -/
def secluded : Surroundings Unit where
  onSearchPath := none
  started := fun _ s => s
  callEnd := fun _ => .error (.os .noSuchEntry)
  launchEnd := fun _ => some (.error (.os .noSuchEntry))
  listening := ⟨fun _ _ s => (.error (.os .addressNotAvailable), s), fun _ _ s => s⟩
  network := Rpc.brokenNetwork (.os .networkUnreachable)
  wire := fun _ _ s => (.error (.connecting, .os .networkUnreachable), s)
  peer := fun _ _ => .error (.os .noSuchEntry)

def Invocation.file (i : Invocation) : String :=
  match i.command with
  | .validate file => file
  | _ => i.config

/-- The part of the file system that a call may look at. -/
def readDisk (args : List String) : IO Disk := do
  match Invocation.ofArguments args with
  | .error _ => return Disk.ofTree .empty []
  | .ok i =>
    try
      let content ← IO.FS.readBinFile i.file
      return (Disk.ofTree .empty []).plant (.ofText i.file) (.file content.data.toList)
    catch _ => return Disk.ofTree .empty []

end LiveMigration.CommandLine

open LiveMigration.CommandLine in
def main (args : List String) : IO UInt32 := do
  let disk ← readDisk args
  let (report, ()) := call secluded args ⟨disk, ()⟩
  for line in report.output do
    IO.println line
  for line in report.errors do
    IO.eprintln line
  return UInt32.ofNat (report.code.getD 0)
