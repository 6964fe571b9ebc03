import LiveMigration.Cadence
import LiveMigration.Proofs.Chain.Held
import LiveMigration.Proofs.Dump.Directory
import Mathlib.Data.List.Pairwise

/-!
Ledgers. A ledger has every dump that a node took for its chains, with the dump it builds on.
No two of them have the same name, and a chain that follows the ledger is told by its last
dump.
-/

namespace LiveMigration

open Chain

/-- The dumps that were taken and what they build on, oldest first. -/
structure Ledger (plans : List Plan) : Prop where
  ascending : plans.Pairwise fun p q => p.dump.sequence < q.dump.sequence
  follows : ∀ p ∈ plans, ∀ b ∈ p.base, p.dump.sequence.toNat = b.sequence.toNat + 1
  regular : ∀ p ∈ plans, p.dump.kind ≠ .checkpoint

/-- Every dump of the list is in the ledger as one that builds on the dump before it. -/
def Traced (plans : List Plan) (ds : List Dump) : Prop :=
  ∀ front d rest, ds = front ++ d :: rest → ⟨d, front.getLast?⟩ ∈ plans

variable {plans plans' : List Plan} {ds rest : List Dump} {d : Dump}

theorem Ledger.empty : Ledger [] := ⟨.nil, nofun, nofun⟩

theorem Ledger.concat (ledger : Ledger plans) {p : Plan}
    (later : ∀ q ∈ plans, q.dump.sequence < p.dump.sequence)
    (follows : ∀ b ∈ p.base, p.dump.sequence.toNat = b.sequence.toNat + 1)
    (regular : p.dump.kind ≠ .checkpoint) : Ledger (plans ++ [p]) := by
  refine ⟨List.pairwise_append.2 ⟨ledger.ascending, List.pairwise_singleton _ _, ?_⟩, ?_, ?_⟩
  · intro q hq r hr
    rw [List.mem_singleton.1 hr]
    exact later q hq
  · intro q hq
    rcases List.mem_append.1 hq with hq | hq
    · exact ledger.follows q hq
    · rw [List.mem_singleton.1 hq]
      exact follows
  · intro q hq
    rcases List.mem_append.1 hq with hq | hq
    · exact ledger.regular q hq
    · rw [List.mem_singleton.1 hq]
      exact regular

/-- A name stands for one dump of the ledger at most. -/
theorem Ledger.eq_of_entryName (ledger : Ledger plans) {p q : Plan} (hp : p ∈ plans)
    (hq : q ∈ plans) (same : p.dump.entryName = q.dump.entryName) : p = q := by
  have sequence : p.dump.sequence = q.dump.sequence := (Dump.entryName_inj.1 same).2
  have told : plans.Pairwise fun p q => p.dump.sequence = q.dump.sequence → p = q :=
    ledger.ascending.imp fun lt eq => absurd (eq ▸ lt) (UInt64.lt_irrefl _)
  have : Std.Symm fun p q : Plan => p.dump.sequence = q.dump.sequence → p = q :=
    ⟨fun p q h eq => (h eq.symm).symm⟩
  exact told.forall_of_forall (fun _ _ _ => rfl) hp hq sequence

theorem Traced.empty (plans : List Plan) : Traced plans [] := by
  intro front d rest same
  cases front <;> cases same

theorem Traced.mono (traced : Traced plans ds) (grown : plans ⊆ plans') : Traced plans' ds :=
  fun front d rest same => grown (traced front d rest same)

theorem Traced.front (traced : Traced plans (ds ++ rest)) : Traced plans ds := by
  rintro front d rest' rfl
  exact traced front d (rest' ++ rest) (by rw [List.append_assoc, List.cons_append])

theorem Traced.last (traced : Traced plans (ds ++ [d])) : ⟨d, ds.getLast?⟩ ∈ plans :=
  traced ds d [] rfl

theorem Traced.concat (traced : Traced plans ds) (mem : ⟨d, ds.getLast?⟩ ∈ plans) :
    Traced plans (ds ++ [d]) := by
  intro front d' rest same
  obtain none | ⟨rest', last, same'⟩ := List.eq_nil_or_concat' rest
  · subst none
    obtain ⟨rfl, rfl⟩ := List.append_singleton_inj.1 same
    exact mem
  · subst same'
    rw [← List.cons_append, ← List.append_assoc] at same
    exact traced front d' rest' (List.append_singleton_inj.1 same).1

theorem Traced.consecutive (ledger : Ledger plans) (traced : Traced plans ds) :
    Consecutive ds := by
  induction ds using List.reverseRecOn with
  | nil => exact .nil
  | append_singleton ds d ih =>
      refine (ih traced.front).concat ?_
      exact ledger.follows _ traced.last

end LiveMigration
