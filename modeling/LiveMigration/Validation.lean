import LiveMigration.Text.Quoted

/-!
Rejected values. A value that comes from an operator, a configuration file or another node
is checked once, when its type is built; what was wrong with it is kept as a cause and put
into words here.
-/

namespace LiveMigration

inductive Objection
  | emptyId
  | longId (bytes limit : Nat)
  | dotsOnlyId
  | idCharacter (c : Char)
  | reservedPort
  | equalPorts
  | relativePath
  | emptySecret
  | notPositive
  deriving DecidableEq, Repr

def Objection.message : Objection → String
  | emptyId => "Container ID cannot be empty"
  | longId n limit => s!"Container ID too long: {n} chars (max {limit})"
  | dotsOnlyId => "Container ID cannot consist of dots only"
  | idCharacter c => "Container ID contains invalid character " ++ Text.quotedChar c
  | reservedPort => "Port 0 is reserved and cannot be used"
  | equalPorts => "RPC and file transfer ports must differ"
  | relativePath => "Dump path must be absolute"
  | emptySecret => "Secret must not be empty when set"
  | notPositive => "Must be greater than 0"

inductive ValidationError
  | missingField (field part : String)
  | invalidField (field value : String) (why : Objection)
  | invalidPort (port : UInt16) (why : Objection)
  deriving DecidableEq, Repr

def ValidationError.message : ValidationError → String
  | missingField field part => s!"Missing required field: {field} in {part}"
  | invalidField field value why =>
    s!"Invalid field value: {field} = {value} - " ++ why.message
  | invalidPort port why => s!"Invalid port: {port.toNat} - " ++ why.message

end LiveMigration
