import LiveMigration.Node.Operations
import LiveMigration.Proofs.Chain.Rebuilt
import LiveMigration.Proofs.Disk.Places
import LiveMigration.Proofs.Lineage.Scan
import LiveMigration.Proofs.Rpc.Codec

/-!
The chain that a node recovers. The way back from the full dump that was found only adds names in
front, so the chain ends in that very dump.
-/

namespace LiveMigration

variable {disk : Disk} {root dir : Path} {names found : List String} {d : Dump}

namespace Lineage

theorem walk_suffix {fuel : Nat} (h : walk disk fuel dir names = .ok found) : names <:+ found := by
  induction fuel generalizing dir names with
  | zero => cases h
  | succ fuel ih =>
      unfold walk at h
      cases previous : predecessor disk dir with
      | error e =>
          rw [previous] at h
          cases h
      | ok name =>
          rw [previous] at h
          cases name with
          | none =>
              cases h
              exact List.suffix_rfl
          | some name =>
              simp only [bind, Except.bind] at h
              split at h
              · cases h
              · exact (List.suffix_cons name names).trans (ih h)

theorem reconstruct_suffix (h : reconstruct disk dir = .ok names) :
    ∃ name, dumpName dir dir = .ok name ∧ [name] <:+ names := by
  obtain ⟨name, named, walked⟩ := Rpc.ok_of_bind h
  exact ⟨name, named, walk_suffix walked⟩

theorem bytes_of_list {entries : List (Bytes × Entry)} (h : disk.list root = .ok entries) :
    root.bytes ≠ [] := by
  unfold Disk.list at h
  split at h
  · rename_i l there
    exact (FileTree.leads_of_find there).nonempty
  all_goals cases h

end Lineage

theorem Dump.ofNames_concat {ds : List Dump} (offset : d.offset = 0)
    (h : Dump.ofNames (names ++ [d.name]) = .ok ds) : ds.getLast? = some d := by
  induction names generalizing ds with
  | nil =>
      obtain ⟨x, named, h⟩ := Rpc.ok_of_bind h
      rw [Dump.ofName_name, ← offset] at named
      cases named
      cases h
      rfl
  | cons name names ih =>
      obtain ⟨x, rest, _, others, rfl⟩ := Dump.ofNames_cons_eq_ok h
      have last := ih others
      cases rest with
      | nil => cases last
      | cons y rest => rwa [List.getLast?_cons_cons]

/-- The chain that a node recovers ends in the full dump that it has found. -/
theorem Node.Site.latest?_of_recover {settings : Node.Settings} {chain : Chain}
    (h : recover settings disk = .ok chain) :
    ∃ d, Lineage.recover disk settings.dumpPath = .ok d ∧ chain.latest? = some d := by
  obtain ⟨d, scanned, h⟩ := Rpc.ok_of_bind h
  obtain ⟨names, passed, h⟩ := Rpc.ok_of_bind h
  obtain ⟨ds, named, h⟩ := Rpc.ok_of_bind h
  cases h
  have scanned := Rpc.ok_of_mapError scanned
  refine ⟨d, scanned, ?_⟩
  obtain ⟨entries, listed, offers, _⟩ := Lineage.offers_of_recover scanned
  obtain ⟨name, own, suffix⟩ := Lineage.reconstruct_suffix (Rpc.ok_of_mapError passed)
  rw [Lineage.dumpName_pathIn (Lineage.bytes_of_list listed)] at own
  cases own
  obtain ⟨front, rfl⟩ := suffix
  have last := Dump.ofNames_concat offers.offset (Rpc.ok_of_mapError named)
  rw [Chain.latest?_eq, Chain.dumps_ofDumps]
  exact Chain.getLast?_withOffsets offers.full offers.offset last 0

end LiveMigration
