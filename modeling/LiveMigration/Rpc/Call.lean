import LiveMigration.Rpc.Session
import LiveMigration.Text.Blank

/-!
The calling end of a connection: one message, one reply line. What the network does with a
call is given by a function from the address and the line to what comes back, so that a call
is decided by that alone.
-/

namespace LiveMigration.Rpc

/-- What comes back on a connection that was opened for one line. -/
inductive Answer
  | fault (f : Fault)
  /-- All that the peer wrote until it closed or the line ended. -/
  | bytes (b : Bytes)
  | late
  deriving DecidableEq, Repr

/-- Where lines go and what comes back, for callers that change with every call. -/
abbrev Network (σ : Type) := String → Bytes → σ → Answer × σ

/-- What keeps a text from being a host, a colon and a port number. -/
def addressFault? (address : String) : Option Fault :=
  let backwards := address.toList.reverse
  match backwards.dropWhile (· != ':') with
  | [] => some .addressWithoutPort
  | _ =>
    match Port.numberOfText? (backwards.takeWhile (· != ':')).reverse with
    | some _ => none
    | none => some .invalidPortNumber

def brokenNetwork (fault : Fault) : Network σ := fun address _ s =>
  (.fault ((addressFault? address).getD fault), s)

def firstLine : Bytes → Bytes
  | [] => []
  | b :: rest => if b = newline then [b] else b :: firstLine rest

def replyOf (address : String) (timeout : Nat) : Answer → Except RpcError Reply
  | .fault f => .error (.transport address f)
  | .late => .error (.timeout address timeout)
  | .bytes [] => .error (.transport address .noReply)
  | .bytes b =>
    match Bytes.text? (firstLine b) with
    | none => .error (.transport address .notText)
    | some line => decodedAs .reply (Reply.decode (Bytes.ofText (Text.trimEnd line)))

def Message.line (m : Message) : Except RpcError Bytes := m.encode.map (· ++ [newline])

/-- Sends one message and reads its reply; `timeout` is in milliseconds. -/
def call (network : Network σ) (address : String) (timeout : Nat) (m : Message) (s : σ) :
    Except RpcError Reply × σ :=
  match m.line with
  | .error e => (.error e, s)
  | .ok line =>
    let (answer, s) := network address line s
    (replyOf address timeout answer, s)

def expectAck (request : Form) : Reply → Except RpcError Unit
  | .ack => .ok ()
  | .error reason => .error (.rejected reason)
  | .joined _ => .error (.unexpectedReply request)

def expectContainer : Reply → Except RpcError ContainerId
  | .joined id => containerOf .joined id
  | .error reason => .error (.rejected reason)
  | .ack => .error (.unexpectedReply .join)

structure Limits where
  rpc : Nat
  ping : Nat
  deriving DecidableEq, Repr

def callPing (network : Network σ) (limits : Limits) (address : String) (s : σ) :
    Except RpcError Unit × σ :=
  let (reply, s) := call network address limits.ping .ping s
  (reply.bind (expectAck .ping), s)

def callJoin (network : Network σ) (limits : Limits) (address : String) (m : Join) (s : σ) :
    Except RpcError ContainerId × σ :=
  let (reply, s) := call network address limits.rpc (.join m) s
  (reply.bind expectContainer, s)

def callMigrate (network : Network σ) (limits : Limits) (address : String) (m : Migrate)
    (s : σ) : Except RpcError Unit × σ :=
  let (reply, s) := call network address limits.rpc (.migrate m) s
  (reply.bind (expectAck .migrate), s)

end LiveMigration.Rpc
