import LiveMigration.Dump.Name
import LiveMigration.Fault
import LiveMigration.Json.Decode
import LiveMigration.Path

/-!
What can go wrong with a remote call: the connection, the time, the message on either end,
or the answer.
-/

namespace LiveMigration

namespace Rpc

inductive Defect
  | undecodable (e : DecodeError)
  | rejected (why : ValidationError)
  | relativeDumpPath (path : Path)
  | badName (e : Dump.NameError)
  | noDumps
  | repeatedSequence
  | noBundle
  | unwritablePath
  deriving DecidableEq, Repr

def Defect.message : Defect → String
  | undecodable e => e.message
  | rejected why => why.message
  | relativeDumpPath path => "dump path must be absolute: " ++ path.display
  | badName e => e.message
  | noDumps => "empty dump list"
  | repeatedSequence => "duplicate dump sequence"
  | noBundle => "empty bundle path"
  | unwritablePath => "path contains invalid UTF-8 characters"

inductive Form
  | envelope
  | join
  | joinAck
  | ping
  | migrate
  | reply
  | joined
  deriving DecidableEq, Repr

def Form.name : Form → String
  | envelope => "<envelope>"
  | join => "Join"
  | joinAck => "JoinAck"
  | ping => "Ping"
  | migrate => "Migrate"
  | reply => "reply"
  | joined => "Joined"

end Rpc

inductive RpcError
  | transport (address : String) (fault : Fault)
  | timeout (address : String) (ms : Nat)
  | unknownTag (tag : String)
  | malformed (form : Rpc.Form) (defect : Rpc.Defect)
  | rejected (reason : String)
  | unexpectedReply (request : Rpc.Form)
  deriving DecidableEq, Repr

def RpcError.message : RpcError → String
  | transport address fault => s!"RPC transport error talking to {address}: " ++ fault.message
  | timeout address ms => s!"RPC to {address} timed out after {ms}ms"
  | unknownTag tag => s!"Unknown RPC tag: {tag}"
  | malformed form defect => s!"Malformed {form.name} message: " ++ defect.message
  | rejected reason => s!"Remote rejected RPC: {reason}"
  | unexpectedReply request => s!"Unexpected reply to {request.name}"

end LiveMigration
