import LiveMigration.ContainerId
import LiveMigration.Rpc.Error
import LiveMigration.Target

/-!
Messages between nodes. Each one is checked where it is built, so a message is well formed
wherever it comes from: announced paths are absolute, ports are never zero, and the dumps of
a handoff are there, in the order of their sequence numbers, each number once.
-/

namespace LiveMigration.Rpc

structure Join where
  rpcPort : Port
  dumpPath : Path
  filePort : Port
  absolute : dumpPath.isAbsolute = true
  deriving DecidableEq, Repr

structure JoinAck where
  container : ContainerId
  deriving DecidableEq, Repr

/-- Whether the sequence numbers go up strictly. -/
def ascending : List Dump → Bool
  | [] => true
  | [_] => true
  | a :: b :: rest => decide (a.sequence < b.sequence) && ascending (b :: rest)

/-- A container and its dumps are handed over. A dump on the wire is its name, so its offset
is unknown and counts as zero. -/
structure Migrate where
  dumps : List Dump
  container : ContainerId
  bundle : Path
  nonempty : dumps ≠ []
  ascending : ascending dumps = true
  named : ∀ d ∈ dumps, d.offset = 0
  bundled : bundle.isEmpty = false
  deriving DecidableEq, Repr

inductive Message
  | join (m : Join)
  | joinAck (m : JoinAck)
  | ping
  | migrate (m : Migrate)
  deriving DecidableEq, Repr

def Message.form : Message → Form
  | join _ => .join
  | joinAck _ => .joinAck
  | ping => .ping
  | migrate _ => .migrate

def Message.tag (m : Message) : String := m.form.name

def portOf (form : Form) (n : UInt16) : Except RpcError Port :=
  (Port.ofNumber n).mapError fun why => .malformed form (.rejected why)

def containerOf (form : Form) (id : String) : Except RpcError ContainerId :=
  (ContainerId.ofText id).mapError fun why => .malformed form (.rejected why)

/-- The path is checked before the ports. -/
def Join.new (rpcPort : UInt16) (dumpPath : Path) (filePort : UInt16) : Except RpcError Join :=
  if h : dumpPath.isAbsolute then do
    let rpcPort ← portOf .join rpcPort
    let filePort ← portOf .join filePort
    return { rpcPort, dumpPath, filePort, absolute := h }
  else .error (.malformed .join (.relativeDumpPath dumpPath))

def JoinAck.new (id : String) : Except RpcError JoinAck :=
  (containerOf .joinAck id).map (⟨·⟩)

def inSequence (ds : List Dump) : List Dump :=
  ds.mergeSort fun a b => decide (a.sequence ≤ b.sequence)

theorem length_inSequence (ds : List Dump) : (inSequence ds).length = ds.length :=
  List.length_mergeSort ds

theorem mem_inSequence {d : Dump} {ds : List Dump} : d ∈ inSequence ds ↔ d ∈ ds :=
  List.mem_mergeSort

/-- The names are checked in the order given, then their sequence numbers, the container and
the bundle. The order of arrival is not trusted. -/
def Migrate.new (names : List String) (id : String) (bundle : Path) : Except RpcError Migrate :=
  if hl : names = [] then .error (.malformed .migrate .noDumps)
  else
    match hd : Dump.ofNames names with
    | .error e => .error (.malformed .migrate (.badName e))
    | .ok ds =>
      if ha : Rpc.ascending (inSequence ds) then do
        let container ← containerOf .migrate id
        if hb : bundle.isEmpty then .error (.malformed .migrate .noBundle)
        else return {
          dumps := inSequence ds, container, bundle, ascending := ha
          nonempty := fun h => hl (List.length_eq_zero_iff.1 (by
            rw [← Dump.length_ofNames hd, ← length_inSequence, h]; rfl))
          named := fun d h => Dump.offset_of_mem_ofNames hd d (mem_inSequence.1 h)
          bundled := by simpa using hb }
      else .error (.malformed .migrate .repeatedSequence)

def Migrate.names (m : Migrate) : List String := m.dumps.map Dump.name

end LiveMigration.Rpc
