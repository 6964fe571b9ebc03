import LiveMigration.Port
import LiveMigration.Path

/-!
Replicas. A target is known by the address of its RPC listener; two registrations with the
same address are the same replica. Its file transfer listener has the same host and a port
of its own. The dump root it announces is for information only.
-/

namespace LiveMigration

structure Target where
  host : String
  rpcPort : Port
  dumpPath : Path
  filePort : Port
  deriving DecidableEq, Repr

namespace Target

/-- A host with colons that is not bracketed yet needs brackets to carry a port. -/
def bracketed (host : String) : String :=
  if host.toList.contains ':' ∧ host.toList.head? ≠ some '[' then "[" ++ host ++ "]" else host

def address (host : String) (port : Port) : String := bracketed host ++ ":" ++ port.toText

def rpcAddress (t : Target) : String := address t.host t.rpcPort

def fileAddress (t : Target) : String := address t.host t.filePort

/-- What replication marks and registrations go by. -/
def key (t : Target) : String := t.rpcAddress

end Target

end LiveMigration
