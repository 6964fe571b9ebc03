import LiveMigration.Proofs.Node.Deeds
import Mathlib.Logic.Function.Basic

/-!
Nodes that share the care of one container. One of them, the source, was told to run it; the
others stood by at first. They act in any order, and what they hear from the network is
anything at all, except that a handoff reaches only the node that it is addressed to, and at
most once for every time that it was sent. When a replica may take its source for lost is a
parameter.
-/

namespace LiveMigration

/-- The statuses in which a node has no container, and may come to accept one. -/
def Status.isIdle : Status → Bool
  | .standBy | .joining => true
  | _ => false

namespace Node

/-- Whether a container runs after a deed: a dump may stop it, and so does a kill. -/
def Deed.leavesUp (up : Bool) : Deed → Bool
  | .launched _ => true
  | .called (.dump _ _ _ leaveRunning) true => up && leaveRunning
  | .called (.kill _) true => false
  | _ => up

def isUp (deeds : List Deed) : Bool := deeds.foldl Deed.leavesUp false

/-- Whether the process of a node's container lives: it has neither ended by itself nor been
stopped. -/
def Working.isAlive (w : Working σ) : Bool := !w.site.node.processes.isEmpty && isUp w.deeds

/-- Between two states a node launched a restore. -/
def Restores (w w' : Working σ) : Prop :=
  ∃ more id image bundle, w'.deeds = w.deeds ++ more ∧ .launched (.restore id image bundle) ∈ more

/-- The liveness timer of a node counts only while the node watches its source and stands by. -/
def Working.Watches (w : Working σ) : Prop := w.activity = .standBy true ∧ w.status = .standBy

/-- What a node sends, and to whom, when its loop has made everything ready for a handoff. -/
def posted (w w' : Working σ) : List (Target × Rpc.Migrate) :=
  match w.activity, w'.activity with
  | .entering .migrating, .handingOver t m => [(t, m)]
  | _, _ => []

/-- What may happen to a replica or a source without a handoff arriving. -/
def Event.isOwn : Event → Bool
  | .run _ _ | .message _ (.migrate _) => false
  | _ => true

/-! ## Claims to a container -/

/-- Whether the loop is behind the final dumps of a handoff. -/
def Activity.hasDumped : Activity → Bool
  | .handingOver _ _ | .leaving .migrating _ => true
  | _ => false

/-- Whether the loop is about to run the handler of a status. -/
def Activity.isEntering (s : Status) : Activity → Bool
  | .entering e => e = s
  | _ => false

/-- How a node may have the container, or come to start it by itself. -/
inductive Stake
  | running
  /-- It hands the container over, and has not taken the final dumps yet. -/
  | dumping
  /-- A handoff to it is under way, and it may accept it. -/
  | offered
  /-- It recovers the chain or restores the container. -/
  | restoring
  /-- It does nothing for the container any more, but the process lives: a handoff has failed, or
  a signal came. -/
  | leftOver
  deriving DecidableEq, Repr

def Working.stake? (w : Working σ) : Option Stake :=
  if w.status = .running then some .running
  else if w.status = .migrating ∧ w.activity.hasDumped = false ∨
      w.activity.isEntering .migrating then some .dumping
  else if w.status = .recovery ∨ w.status = .restoring ∨ w.activity.isEntering .restoring then
    some .restoring
  else if w.isAlive then some .leftOver
  else none

end Node

open Node

/-- How nodes are set up, what they work with, and which of them listens at an address. -/
structure Setup (ι σ : Type) where
  settings : ι → Settings
  rig : ι → Rig σ
  place : String → Option ι

/-- Nodes with the handoffs that are under way between them. -/
structure Cluster (ι σ : Type) where
  nodes : ι → Working σ
  mail : List (Target × Rpc.Migrate)

namespace Cluster

variable {ι σ : Type} [DecidableEq ι]

def act (c : Cluster ι σ) (i : ι) (w : Working σ) (mail : List (Target × Rpc.Migrate)) :
    Cluster ι σ where
  nodes := Function.update c.nodes i w
  mail := mail

/-- A handoff to a node is under way, and the node may accept it. -/
def Offers (u : Setup ι σ) (c : Cluster ι σ) (i : ι) : Prop :=
  (c.nodes i).status.isIdle = true ∧ ∃ p ∈ c.mail, u.place p.1.rpcAddress = some i

instance (u : Setup ι σ) (c : Cluster ι σ) (i : ι) : Decidable (c.Offers u i) :=
  inferInstanceAs (Decidable (_ ∧ _))

def stake? (u : Setup ι σ) (c : Cluster ι σ) (i : ι) : Option Stake :=
  if c.Offers u i then some .offered else (c.nodes i).stake?

/-- What may happen next. A replica notices the silence of its source only where `lost` allows
it to. -/
inductive Step (u : Setup ι σ) (lost : Cluster ι σ → ι → Prop) :
    Cluster ι σ → Cluster ι σ → Prop
  | acts {c : Cluster ι σ} {i : ι} {e : Event} {a : Answer} {w : Working σ}
      (own : e.isOwn = true) (silence : e = .silence → (c.nodes i).Watches → lost c i)
      (h : e.perform (u.settings i) (u.rig i) (c.nodes i) = some (a, w)) :
      Step u lost c (c.act i w (c.mail ++ posted (c.nodes i) w))
  | delivers {c : Cluster ι σ} {i : ι} {host : String} {t : Target} {m : Rpc.Migrate}
      {before after : List (Target × Rpc.Migrate)} {a : Answer} {w : Working σ}
      (mail : c.mail = before ++ (t, m) :: after) (addressed : u.place t.rpcAddress = some i)
      (h : (Event.message host (.migrate m)).perform (u.settings i) (u.rig i) (c.nodes i) =
        some (a, w)) :
      Step u lost c (c.act i w (before ++ after))
  | loses {c : Cluster ι σ} {p : Target × Rpc.Migrate}
      {before after : List (Target × Rpc.Migrate)} (mail : c.mail = before ++ p :: after) :
      Step u lost c { c with mail := before ++ after }

abbrev Run (u : Setup ι σ) (lost : Cluster ι σ → ι → Prop) : Cluster ι σ → Cluster ι σ → Prop :=
  Relation.ReflTransGen (Step u lost)

/-- The source was just told to run the container, and no other node has done anything yet. -/
structure Begins (u : Setup ι σ) (source : ι) (c : Cluster ι σ) : Prop where
  started : StartedFresh (u.settings source) (u.rig source) (c.nodes source)
  others : ∀ i ≠ source, ∃ disk env, c.nodes i = .started disk env
  mail : c.mail = []

/-- No node restores the container while its process lives at another node. -/
def SingleContainer (u : Setup ι σ) (lost : Cluster ι σ → ι → Prop) (c₀ : Cluster ι σ) : Prop :=
  ∀ c c', Run u lost c₀ c → Step u lost c c' →
    ∀ j, Restores (c.nodes j) (c'.nodes j) → ∀ i ≠ j, (c.nodes i).isAlive = false

/-- No other node has a stake in the container. -/
def Unclaimed (u : Setup ι σ) (c : Cluster ι σ) (j : ι) : Prop := ∀ i ≠ j, c.stake? u i = none

end Cluster

end LiveMigration
