import LiveMigration.Proofs.Dump.Name
import LiveMigration.Rpc.Message

/-!
The dumps of a handoff. A message is determined by the names in it, and names that are
already in the order of their sequence numbers are sent in that order.
-/

namespace LiveMigration.Rpc

theorem ascending_iff {ds : List Dump} :
    ascending ds = true ↔ ds.Pairwise fun a b => a.sequence < b.sequence := by
  have trans (a b c : Dump) (h : a.sequence < b.sequence) (k : b.sequence < c.sequence) :
      a.sequence < c.sequence := UInt64.lt_trans h k
  induction ds with
  | nil => simp [ascending]
  | cons a ds ih =>
      cases ds with
      | nil => simp [ascending]
      | cons b ds =>
          rw [ascending, Bool.and_eq_true, decide_eq_true_eq]
          constructor
          · rintro ⟨first, rest⟩
            have rest := ih.1 rest
            refine List.pairwise_cons.2 ⟨?_, rest⟩
            intro c hc
            rcases List.mem_cons.1 hc with rfl | hc
            · exact first
            · exact trans _ _ _ first ((List.pairwise_cons.1 rest).1 c hc)
          · intro all
            exact ⟨(List.pairwise_cons.1 all).1 b (by simp), ih.2 (List.pairwise_cons.1 all).2⟩

/-- Dumps in the order of their numbers stay in this order. -/
theorem inSequence_of_ascending {ds : List Dump} (h : ascending ds = true) :
    inSequence ds = ds := by
  refine List.mergeSort_of_pairwise ?_
  refine (ascending_iff.1 h).imp ?_
  intro a b lt
  simpa using UInt64.le_of_lt lt

theorem containerOf_text (form : Form) (c : ContainerId) : containerOf form c.text = .ok c := by
  unfold containerOf
  rw [ContainerId.ofText_text]
  rfl

theorem text_of_containerOf {form : Form} {id : String} {c : ContainerId}
    (h : containerOf form id = .ok c) : c.text = id := by
  unfold containerOf at h
  cases ht : ContainerId.ofText id with
  | error e =>
      rw [ht] at h
      cases h
  | ok c' =>
      rw [ht] at h
      cases h
      exact ContainerId.text_of_ofText ht

namespace Migrate

/-- The message that was made for some names has these names, in the order of their numbers. -/
theorem dumps_of_new {names : List String} {id : String} {bundle : Path} {m : Migrate}
    (h : Migrate.new names id bundle = .ok m) :
    ∃ ds, Dump.ofNames names = .ok ds ∧ m.dumps = inSequence ds ∧ m.container.text = id ∧
      m.bundle = bundle := by
  unfold Migrate.new at h
  split at h
  · cases h
  split at h
  · cases h
  rename_i ds hds
  split at h
  · cases hc : containerOf .migrate id with
    | error e => simp [hc, bind, Except.bind] at h
    | ok container =>
        simp only [hc, bind, Except.bind] at h
        split at h
        · cases h
        · cases h
          exact ⟨ds, hds, rfl, text_of_containerOf hc, rfl⟩
  · cases h

theorem ofNames_own (m : Migrate) : Dump.ofNames m.names = .ok m.dumps := by
  have same : m.dumps.map (fun d => { d with offset := 0 }) = m.dumps := by
    refine List.map_congr_left (g := id) ?_ |>.trans (List.map_id _)
    intro d hd
    rw [← m.named d hd]
    rfl
  rw [Migrate.names, Dump.ofNames_names, same]

theorem new_names (m : Migrate) : Migrate.new m.names m.container.text m.bundle = .ok m := by
  have nonempty : m.names ≠ [] := by
    intro none
    exact m.nonempty (List.map_eq_nil_iff.1 none)
  unfold Migrate.new
  rw [dif_neg nonempty]
  split
  · rename_i he
    rw [ofNames_own] at he
    cases he
  · rename_i ds hds
    obtain rfl : m.dumps = ds := Except.ok.inj ((ofNames_own m).symm.trans hds)
    have sorted := inSequence_of_ascending m.ascending
    have ascending : Rpc.ascending (inSequence m.dumps) = true := by
      rw [sorted]
      exact m.ascending
    have bundled : ¬ m.bundle.isEmpty = true := by
      rw [m.bundled]
      exact Bool.false_ne_true
    rw [dif_pos ascending, containerOf_text]
    simp only [bind, Except.bind, dif_neg bundled, pure, Except.pure, sorted]

/-- A message lists the names it was made for if they are in the order of their numbers. -/
theorem names_of_new {ds : List Dump} {id : String} {bundle : Path} {m : Migrate}
    (sorted : ds.Pairwise fun a b => a.sequence < b.sequence)
    (h : Migrate.new (ds.map Dump.name) id bundle = .ok m) : m.names = ds.map Dump.name := by
  obtain ⟨read, hread, dumps, _, _⟩ := dumps_of_new h
  rw [Dump.ofNames_names] at hread
  cases hread
  have sorted : Rpc.ascending (ds.map fun d => { d with offset := 0 }) = true := by
    rw [ascending_iff, List.pairwise_map]
    exact sorted
  rw [Migrate.names, dumps, inSequence_of_ascending sorted, List.map_map]
  rfl

/-- Dumps in the order of their numbers can be handed over. -/
theorem exists_new {ds : List Dump} (some : ds ≠ [])
    (sorted : ds.Pairwise fun a b => a.sequence < b.sequence) (container : ContainerId)
    (bundle : Path) (bundled : bundle.isEmpty = false) :
    ∃ m, Migrate.new (ds.map Dump.name) container.text bundle = .ok m := by
  let m : Migrate := {
    dumps := ds.map fun d => { d with offset := 0 }
    container, bundle, bundled
    nonempty := by simpa using some
    ascending := by rw [ascending_iff, List.pairwise_map]; exact sorted
    named := by simp }
  have names : m.names = ds.map Dump.name := List.map_map ..
  exact ⟨m, names ▸ m.new_names⟩

end Migrate

end LiveMigration.Rpc
