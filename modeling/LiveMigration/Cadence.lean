import LiveMigration.Chain.Basic

/-!
Choosing the next dump. An open chain goes on from its latest dump; an empty one starts
afresh after the dump that closed the previous chain, without a parent; on a fresh start
the first dump follows the origin, also without a parent.
-/

namespace LiveMigration

/-- A dump to take and the dump it builds on. -/
structure Plan where
  dump : Dump
  base : Option Dump
  deriving DecidableEq, Repr

def Plan.parentPath (p : Plan) : Option String := p.base.map Dump.parentPath

namespace Cadence

/-- Where the next dump starts from. -/
inductive Position
  | within (latest : Dump)
  | after (closing : Dump)
  | fresh

def position (chain : Chain) (closed : Option Chain) : Position :=
  match chain.latest? with
  | some latest => .within latest
  | none =>
    match closed.bind Chain.latest? with
    | some closing => .after closing
    | none => .fresh

def next? (chain : Chain) (closed : Option Chain) (freq : UInt64) : Option Plan :=
  match position chain closed with
  | .within latest => (latest.next? freq).map (⟨·, some latest⟩)
  | .after closing => closing.nextInNewChain?.map (⟨·, none⟩)
  | .fresh => (Dump.first.next? freq).map (⟨·, none⟩)

/-- The pre-dump that opens a handoff, wherever the cadence stands. -/
def finalPre? (chain : Chain) (closed : Option Chain) : Option Plan :=
  match position chain closed with
  | .within latest => latest.nextPre?.map (⟨·, some latest⟩)
  | .after closing => closing.nextInNewChain?.map (⟨·, none⟩)
  | .fresh => Dump.first.nextPre?.map (⟨·, none⟩)

/-- What a checkpoint follows: whatever dump came last. -/
def checkpointBase (chain : Chain) (closed : Option Chain) : Dump :=
  match position chain closed with
  | .within latest => latest
  | .after closing => closing
  | .fresh => Dump.first

end Cadence

end LiveMigration
