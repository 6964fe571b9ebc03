import LiveMigration.Control.Exchange
import LiveMigration.Node.Supervision

/-!
Starting a node: its dump root is made, its listeners are bound, someone begins to look after
its container, and it stands by. If a listener cannot be bound, those that were are given up
again.
-/

namespace LiveMigration.Node

/-- The network addresses of a machine, shared by all that listen on it. -/
structure Listening (σ : Type) where
  bind : String → Port → σ → Except Fault Unit × σ
  release : String → Port → σ → σ

namespace Site

variable {σ : Type}

def bindListeners (settings : Settings) (net : Listening σ) (s : Site σ) :
    Except NodeError Unit × Site σ :=
  match net.bind settings.rpcHost settings.rpcPort s.env with
  | (.error fault, env) => (.error (.io .bindingRpc fault), { s with env })
  | (.ok (), env) =>
    match net.bind settings.rpcHost settings.filePort env with
    | (.error fault, env) =>
      (.error (.io .bindingTransfer fault),
        { s with env := net.release settings.rpcHost settings.rpcPort env })
    | (.ok (), env) =>
      match Control.bind s.disk settings.controlSocket with
      | (.error e, disk) =>
        let env := net.release settings.rpcHost settings.filePort env
        (.error (.control e),
          { s with disk, env := net.release settings.rpcHost settings.rpcPort env })
      | (.ok (), disk) => (.ok (), { s with disk, env })

def start (settings : Settings) (net : Listening σ) (s : Site σ) :
    Except NodeError Unit × Site σ :=
  let (made, disk) := s.disk.createDirectories settings.dumpPath
  let s := { s with disk }
  match made with
  | .error fault => (.error (.io .creatingDumpDirectory fault), s)
  | .ok () =>
    match s.bindListeners settings net with
    | (.error e, s) => (.error e, s)
    | (.ok (), s) =>
      let (_, s) := s.takeSupervision
      match s.changeStatus .standBy with
      | (.error e, s) => (.error (.status e), s)
      | (.ok (), s) => (.ok (), s)

end Site

end LiveMigration.Node
