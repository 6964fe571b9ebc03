import LiveMigration.Chain.Basic

/-!
Replicating a chain to a target. A pass sends dumps oldest first, each with its predecessor,
and stops at the first failure; every dump that arrived is marked. `sync` sends what comes
after the latest marked dump, `sendAll` sends the whole chain.
-/

namespace LiveMigration.Chain

variable {σ ε : Type}

/-- How one dump is sent: with its predecessor, by a sender that has a state of its own. -/
abbrev Send (σ ε : Type) := Dump → Option Dump → σ → Except ε Unit × σ

/-- The links after a pass, how many dumps arrived, and the state of the sender. -/
structure Pass (σ : Type) where
  links : List Link
  sent : Nat
  state : σ

/-- Sends the links in order; `before` is the dump in front of them. -/
def sendLinks (send : Send σ ε) (key : String) :
    Option Dump → List Link → σ → Pass σ
  | _, [], s => ⟨[], 0, s⟩
  | before, l :: ls, s =>
    match send l.dump before s with
    | (.ok (), s) =>
      let pass := sendLinks send key (some l.dump) ls s
      ⟨l.mark key :: pass.links, pass.sent + 1, pass.state⟩
    | (.error _, s) => ⟨l :: ls, 0, s⟩

/-- The links up to the latest one that the target holds. -/
def heldPart (c : Chain) (key : String) : List Link :=
  (c.links.reverse.dropWhile (!·.isHeldBy key)).reverse

/-- The links after the latest one that the target holds. -/
def pendingPart (c : Chain) (key : String) : List Link :=
  (c.links.reverse.takeWhile (!·.isHeldBy key)).reverse

theorem heldPart_append_pendingPart (c : Chain) (key : String) :
    c.heldPart key ++ c.pendingPart key = c.links := by
  rw [heldPart, pendingPart, ← List.reverse_append, List.takeWhile_append_dropWhile,
    List.reverse_reverse]

/-- Sends what the target is not known to hold. -/
def sync (c : Chain) (send : Send σ ε) (key : String) (s : σ) : Nat × Chain × σ :=
  let held := c.heldPart key
  let pass := sendLinks send key (held.getLast?.map Link.dump) (c.pendingPart key) s
  (pass.sent, ⟨held ++ pass.links⟩, pass.state)

def sendAll (c : Chain) (send : Send σ ε) (key : String) (s : σ) : Nat × Chain × σ :=
  let pass := sendLinks send key none c.links s
  (pass.sent, ⟨pass.links⟩, pass.state)

end LiveMigration.Chain
