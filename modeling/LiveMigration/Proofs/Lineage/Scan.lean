import LiveMigration.Proofs.Disk.Operations
import LiveMigration.Proofs.Dump.Directory
import Mathlib.Data.List.MinMax

/-!
The scan for a full dump to recover from. All that matters is which full dumps have a directory
in the dump root: one of them that no other one comes after is found. So one more directory
makes a difference only if it is that of a later full dump.
-/

namespace LiveMigration.Lineage

open Bytes (ofText)

/-- A full dump, as its name tells it, has a directory among these entries. -/
structure Offers (entries : List (Bytes × Entry)) (x : Dump) : Prop where
  full : x.isFull = true
  offset : x.offset = 0
  entry : (x.entryName, Entry.directory) ∈ entries

variable {entries entries' : List (Bytes × Entry)} {x y : Dump}

theorem fullDump?_eq_some {entry : Bytes × Entry} (h : fullDump? entry = some x) :
    x.isFull = true ∧ x.offset = 0 ∧ entry = (x.entryName, .directory) := by
  unfold fullDump? at h
  split at h
  · rename_i name
    split at h
    · rename_i named
      split at h
      · rename_i full
        cases h
        obtain ⟨text, spelt, named⟩ := Option.map_eq_some_iff.1 named
        refine ⟨full, Dump.offset_of_ofName named, Prod.ext ?_ rfl⟩
        rw [Dump.entryName, Dump.name_of_ofName named]
        exact Bytes.text?_eq_some_iff.1 spelt
      · cases h
    · cases h
  · cases h

theorem fullDump?_entryName (full : x.isFull = true) (offset : x.offset = 0) :
    fullDump? (x.entryName, .directory) = some x := by
  have named : (Bytes.text? x.entryName).map Dump.ofName = some (.ok x) := by
    rw [Dump.entryName, Bytes.text?_ofText, Option.map_some, Dump.ofName_name, ← offset]
  unfold fullDump?
  dsimp only
  rw [named]
  exact if_pos full

theorem mem_fullDumps : x ∈ entries.filterMap fullDump? ↔ Offers entries x := by
  rw [List.mem_filterMap]
  constructor
  · rintro ⟨entry, mem, h⟩
    obtain ⟨full, offset, rfl⟩ := fullDump?_eq_some h
    exact ⟨full, offset, mem⟩
  · exact fun offers => ⟨_, offers.entry, fullDump?_entryName offers.full offers.offset⟩

theorem Offers.eq_of_sequence (hx : Offers entries x) (hy : Offers entries' y)
    (same : x.sequence = y.sequence) : x = y := by
  obtain ⟨kind, sequence, offset⟩ := x
  obtain ⟨kind', sequence', offset'⟩ := y
  obtain rfl : kind = .full := by simpa [Dump.isFull] using hx.full
  obtain rfl : kind' = .full := by simpa [Dump.isFull] using hy.full
  obtain rfl : offset = 0 := hx.offset
  obtain rfl : offset' = 0 := hy.offset
  obtain rfl : sequence = sequence' := same
  rfl

theorem latestFull_eq_argmax (entries : List (Bytes × Entry)) :
    latestFull entries = (entries.filterMap fullDump?).argmax fun d => d.sequence.toNat := by
  unfold latestFull List.argmax
  congr 1
  funext best d
  cases best with
  | none => rfl
  | some b => simp only [later, List.argAux, UInt64.lt_iff_toNat_lt]

theorem latestFull_eq_none_iff : latestFull entries = none ↔ ∀ x, ¬ Offers entries x := by
  rw [latestFull_eq_argmax, List.argmax_eq_none, List.eq_nil_iff_forall_not_mem]
  exact forall_congr' fun x => not_congr mem_fullDumps

/-- What is found, and why. -/
theorem latestFull_eq_some_iff : latestFull entries = some x ↔
    Offers entries x ∧ ∀ y, Offers entries y → y.sequence ≤ x.sequence := by
  have best {x : Dump} (h : latestFull entries = some x) :
      Offers entries x ∧ ∀ y, Offers entries y → y.sequence ≤ x.sequence := by
    rw [latestFull_eq_argmax] at h
    refine ⟨mem_fullDumps.1 (List.argmax_mem h), fun y offers => UInt64.le_iff_toNat_le.2 ?_⟩
    exact List.le_of_mem_argmax (f := fun d : Dump => d.sequence.toNat) (mem_fullDumps.2 offers) h
  refine ⟨best, fun ⟨offers, highest⟩ => ?_⟩
  cases found : latestFull entries with
  | none => exact absurd offers (latestFull_eq_none_iff.1 found x)
  | some z =>
      obtain ⟨offers', highest'⟩ := best found
      have same := UInt64.le_antisymm (highest' x offers) (highest z offers')
      rw [offers.eq_of_sequence offers' same]

theorem latestFull_congr (same : ∀ x, Offers entries' x ↔ Offers entries x) :
    latestFull entries' = latestFull entries := by
  refine Option.ext fun x => ?_
  simp only [latestFull_eq_some_iff, same]

/-- One more full dump is found if it comes after the one that was found, and only then. -/
theorem latestFull_of_one_more (more : ∀ y, Offers entries' y ↔ Offers entries y ∨ y = x) :
    latestFull entries' = latestFull entries ∨ latestFull entries' = some x ∧
      ∀ y, latestFull entries = some y → y.sequence < x.sequence := by
  have offered : Offers entries' x := (more x).2 (.inr rfl)
  by_cases after : ∀ y, Offers entries y → y.sequence < x.sequence
  · refine .inr ⟨latestFull_eq_some_iff.2 ⟨offered, fun y offers => ?_⟩, fun y found => ?_⟩
    · obtain offers | rfl := (more y).1 offers
      · exact UInt64.le_of_lt (after y offers)
      · exact UInt64.le_refl _
    · exact after y (latestFull_eq_some_iff.1 found).1
  · obtain ⟨z, offers, below⟩ : ∃ z, Offers entries z ∧ x.sequence ≤ z.sequence := by
      simpa only [not_forall, UInt64.not_lt, exists_prop] using after
    left
    cases found : latestFull entries with
    | none => exact absurd offers (latestFull_eq_none_iff.1 found z)
    | some b =>
        obtain ⟨offers', highest⟩ := latestFull_eq_some_iff.1 found
        refine latestFull_eq_some_iff.2 ⟨(more b).2 (.inl offers'), fun y offers'' => ?_⟩
        obtain offers'' | rfl := (more y).1 offers''
        · exact highest y offers''
        · exact UInt64.le_trans below (highest z offers)

/-! ## Recovery -/

variable {d d' : Disk} {root : Path} {k : Location}

theorem recover_of_list (listed : d.list root = .ok entries) :
    recover d root = match latestFull entries with
      | some x => .ok x
      | none => .error (.noFullDump root) := by
  unfold recover
  cases latest : latestFull entries <;> simp only [listed, latest]

theorem recover_eq (found : d.find root = .ok (.present k .directory)) :
    recover d root = match latestFull (d.tree.children k) with
      | some x => .ok x
      | none => .error (.noFullDump root) := by
  apply recover_of_list
  unfold Disk.list
  rw [found]

theorem recover_eq_ok_iff (found : d.find root = .ok (.present k .directory)) :
    recover d root = .ok x ↔ latestFull (d.tree.children k) = some x := by
  rw [recover_eq found]
  cases latestFull (d.tree.children k) <;> simp

/-- A full dump that was found has a directory, and no full dump with a directory comes after
it. -/
theorem offers_of_recover (h : recover d root = .ok x) :
    ∃ entries, d.list root = .ok entries ∧ Offers entries x ∧
      ∀ y, Offers entries y → y.sequence ≤ x.sequence := by
  cases listed : d.list root with
  | error f =>
      simp only [recover, listed] at h
      cases h
  | ok entries =>
      rw [recover_of_list listed] at h
      cases latest : latestFull entries with
      | none =>
          rw [latest] at h
          cases h
      | some y =>
          rw [latest] at h
          cases h
          exact ⟨entries, rfl, latestFull_eq_some_iff.1 latest⟩

theorem Offers.of_perm (offers : Offers entries x) (same : entries.Perm entries') :
    Offers entries' x :=
  ⟨offers.full, offers.offset, same.mem_iff.1 offers.entry⟩

/-- The order in which entries are listed is no matter. -/
theorem latestFull_perm (same : entries'.Perm entries) :
    latestFull entries' = latestFull entries :=
  latestFull_congr fun _ => ⟨fun offers => offers.of_perm same,
    fun offers => offers.of_perm same.symm⟩

/-- What is recovered from a root that can be listed: of all full dumps that have a directory
there under their own name the one with the highest sequence number, whatever else there is and
in whatever order it is listed; and it fails if and only if there is no such dump. -/
theorem recover_spec (listed : d.list root = .ok entries) :
    (∀ x, recover d root = .ok x ↔
      Offers entries x ∧ ∀ y, Offers entries y → y.sequence ≤ x.sequence) ∧
    (∀ e, recover d root = .error e ↔ e = .noFullDump root ∧ ∀ x, ¬ Offers entries x) ∧
    ∀ d' entries', d'.list root = .ok entries' → entries'.Perm entries →
      recover d' root = recover d root := by
  have recovered := recover_of_list listed
  refine ⟨fun x => ?_, fun e => ?_, fun d' entries' listed' same => ?_⟩
  · rw [← latestFull_eq_some_iff, recovered]
    cases latestFull entries <;> simp
  · rw [← latestFull_eq_none_iff, recovered]
    cases latestFull entries <;> simp [eq_comm]
  · rw [recovered, recover_of_list listed', latestFull_perm same]

/-- Full dumps, and much that only looks like one of a higher number: a file, a link, a padded
number, one that is too large, bytes that are no text, dumps of other kinds. -/
def sampleScan : Disk :=
  .ofTree ⟨[([ofText "d3"], .directory), ([ofText "d99"], .file []),
    ([ofText "d98"], .link (ofText "d3")), ([ofText "d10"], .directory),
    ([ofText "d097"], .directory), ([ofText "d18446744073709551616"], .directory),
    ([[0x64, 0xFF]], .directory), ([ofText "p96"], .directory), ([ofText "c95"], .directory),
    ([ofText "d10", ofText "d94"], .directory)]⟩ []

theorem recover_spec_sample :
    recover sampleScan ⟨[Path.slash]⟩ = .ok ⟨.full, 10, 0⟩ ∧
    recover (.ofTree ⟨sampleScan.tree.entries.reverse⟩ []) ⟨[Path.slash]⟩ = .ok ⟨.full, 10, 0⟩ ∧
    recover (.ofTree ⟨sampleScan.tree.entries.drop 4⟩ []) ⟨[Path.slash]⟩ =
      .error (.noFullDump ⟨[Path.slash]⟩) := by
  have found (entries : List (Location × Entry)) :
      (Disk.ofTree ⟨entries⟩ []).list ⟨[Path.slash]⟩ = .ok (FileTree.children ⟨entries⟩ []) := by
    rfl
  have recovered : recover sampleScan ⟨[Path.slash]⟩ = .ok ⟨.full, 10, 0⟩ := by decide +kernel
  obtain ⟨-, -, reordered⟩ := recover_spec (found sampleScan.tree.entries)
  obtain ⟨-, failed, -⟩ := recover_spec (found (sampleScan.tree.entries.drop 4))
  refine ⟨recovered, (reordered _ _ (found _) ?_).trans recovered, (failed _).2 ⟨rfl, ?_⟩⟩
  · exact (sampleScan.tree.entries.reverse_perm).filterMap _
  · rw [← latestFull_eq_none_iff]
    decide +kernel

end LiveMigration.Lineage
