import LiveMigration.Disk.Basic
import Mathlib.Data.List.Basic

/-!
Changes inside one place of a file tree. What lies at a location or below it is inside;
everything else is outside, and trees that agree on the outside agree on what is found there
and on what other directories hold.
-/

namespace LiveMigration.FileTree

/-- Everything that is neither at a location nor below it. -/
def outside (t : FileTree) (l : Location) : List (Location × Entry) :=
  t.entries.filter fun p => !l.isPrefixOf p.1

theorem lookup_filter {q : Location × Entry → Bool} {k : Location}
    (h : ∀ e, q (k, e) = true) (ps : List (Location × Entry)) :
    (ps.filter q).lookup k = ps.lookup k := by
  induction ps with
  | nil => rfl
  | cons p ps ih =>
      obtain ⟨m, e⟩ := p
      by_cases hm : k = m
      · subst hm
        rw [List.filter_cons_of_pos (h e), List.lookup_cons_self, List.lookup_cons_self]
      · have other : (k == m) = false := by simpa using hm
        rw [List.lookup_cons, other]
        cases hq : q (m, e) with
        | true =>
            rw [List.filter_cons_of_pos hq, List.lookup_cons, other]
            exact ih
        | false =>
            rw [List.filter_cons_of_neg (by simp [hq])]
            exact ih

theorem get?_of_outside {t t' : FileTree} {l k : Location} (same : t'.outside l = t.outside l)
    (h : ¬ l <+: k) : t'.get? k = t.get? k := by
  cases k with
  | nil => rfl
  | cons name k =>
      have keep (e : Entry) : (fun p : Location × Entry => !l.isPrefixOf p.1) (name :: k, e) =
          true := by
        rw [Bool.not_eq_true', Bool.eq_false_iff, ne_eq, List.isPrefixOf_iff_prefix]
        exact h
      have found (u : FileTree) : u.get? (name :: k) = (u.outside l).lookup (name :: k) :=
        (lookup_filter keep u.entries).symm
      rw [found, found, same]

theorem mem_outside {t : FileTree} {l k : Location} {e : Entry} :
    (k, e) ∈ t.outside l ↔ (k, e) ∈ t.entries ∧ ¬ l <+: k := by
  unfold outside
  rw [List.mem_filter, Bool.not_eq_true', Bool.eq_false_iff, ne_eq, List.isPrefixOf_iff_prefix]

theorem mem_below {t : FileTree} {l k : Location} {e : Entry} :
    (k, e) ∈ t.below l ↔ (k, e) ∈ t.entries ∧ l <+: k ∧ k ≠ l := by
  unfold below
  rw [List.mem_filter, Bool.and_eq_true, List.isPrefixOf_iff_prefix, bne_iff_ne]
  refine and_congr_right fun _ => and_congr_right fun inside => not_congr ⟨fun same => ?_, ?_⟩
  · exact (inside.eq_of_length same.symm).symm
  · exact congrArg List.length

/-- What a directory holds under another name is outside. -/
theorem apart_of_ne {k : Location} {name other : Bytes} (ne : name ≠ other) (rest : Location) :
    ¬ k ++ [other] <+: k ++ [name] ++ rest := by
  rw [List.append_assoc, List.prefix_append_right_inj, List.singleton_append,
    List.cons_prefix_cons]
  rintro ⟨same, _⟩
  exact ne same.symm

theorem childOf_eq_some {l : Location} {p : Location × Entry} {child : Bytes × Entry}
    (h : childOf l p = some child) : p = (l ++ [child.1], child.2) := by
  unfold childOf at h
  split at h
  · rename_i name last
    split at h
    · rename_i front
      cases h
      refine Prod.ext ?_ rfl
      obtain ⟨init, same⟩ := List.getLast?_eq_some_iff.1 last
      rw [same, List.dropLast_concat] at front
      rw [same, front]
    · cases h
  · cases h

theorem childOf_concat (l : Location) (name : Bytes) (e : Entry) :
    childOf l (l ++ [name], e) = some (name, e) := by
  simp [childOf]

theorem mem_children {t : FileTree} {l : Location} {name : Bytes} {e : Entry} :
    (name, e) ∈ t.children l ↔ (l ++ [name], e) ∈ t.entries := by
  unfold children
  rw [List.mem_filterMap]
  constructor
  · rintro ⟨p, mem, child⟩
    rw [childOf_eq_some child] at mem
    exact mem
  · exact fun mem => ⟨_, mem, childOf_concat l name e⟩

/-- A directory outside of a place holds the same unless it holds the place itself. -/
theorem children_of_outside {t t' : FileTree} {l k : Location}
    (same : t'.outside l = t.outside l) (h : ¬ l <+: k) (other : ∀ name, l ≠ k ++ [name]) :
    t'.children k = t.children k := by
  have found (u : FileTree) : u.children k = (u.outside l).filterMap (childOf k) := by
    unfold children outside
    rw [List.filterMap_filter]
    refine List.filterMap_congr ?_
    intro p _
    cases hp : l.isPrefixOf p.1 with
    | false => rfl
    | true =>
        cases hc : childOf k p with
        | none => rfl
        | some child =>
            rw [childOf_eq_some hc, List.isPrefixOf_iff_prefix] at hp
            obtain same | inside := List.prefix_concat_iff.1 hp
            · exact absurd same (other child.1)
            · exact absurd inside h
  rw [found, found, same]

theorem outside_put {t : FileTree} {l k : Location} (e : Entry) (h : l <+: k) :
    (t.put k e).outside l = t.outside l := by
  have inside : (l.isPrefixOf k) = true := List.isPrefixOf_iff_prefix.2 h
  unfold put outside
  dsimp only
  induction t.entries with
  | nil => simp [putIn, inside]
  | cons p ps ih =>
      obtain ⟨m, old⟩ := p
      unfold putIn
      split
      · rename_i same
        subst same
        simp [inside]
      · rw [List.filter_cons, List.filter_cons, ih]

theorem outside_erase {t : FileTree} {l k : Location} (h : l <+: k) :
    (t.erase k).outside l = t.outside l := by
  unfold erase outside
  dsimp only
  rw [List.filter_filter]
  refine List.filter_congr ?_
  intro p _
  by_cases same : p.1 = k
  · have inside := List.isPrefixOf_iff_prefix.2 h
    simp [same, inside]
  · simp [same]

theorem mem_of_mem_put {t : FileTree} {l k : Location} {e x : Entry}
    (h : (k, e) ∈ (t.put l x).entries) : (k, e) ∈ t.entries ∨ k = l ∧ e = x := by
  have within (ps : List (Location × Entry)) (h : (k, e) ∈ putIn l x ps) :
      (k, e) ∈ ps ∨ k = l ∧ e = x := by
    induction ps with
    | nil => exact .inr (Prod.mk.inj (List.mem_singleton.1 h))
    | cons p ps ih =>
        unfold putIn at h
        split at h
        · rename_i same
          rcases List.mem_cons.1 h with eq | mem
          · obtain ⟨rfl, rfl⟩ := Prod.mk.inj eq
            exact .inr ⟨same, rfl⟩
          · exact .inl (List.mem_cons_of_mem _ mem)
        · rcases List.mem_cons.1 h with eq | mem
          · exact .inl (eq ▸ List.mem_cons_self ..)
          · exact (ih mem).imp (List.mem_cons_of_mem _) id
  exact within t.entries h

theorem exists_of_mem {t : FileTree} {l : Location} {e : Entry} (h : (l, e) ∈ t.entries) :
    ∃ e', t.get? l = some e' := by
  cases l with
  | nil => exact ⟨.directory, rfl⟩
  | cons name l =>
      refine Option.isSome_iff_exists.1 (List.lookup_isSome_iff.2 ⟨_, h, ?_⟩)
      exact beq_self_eq_true _

theorem mem_of_get? {t : FileTree} {l : Location} {e : Entry} (h : t.get? l = some e)
    (ne : l ≠ []) : (l, e) ∈ t.entries := by
  cases l with
  | nil => exact absurd rfl ne
  | cons name l =>
      obtain ⟨before, behind, same, _⟩ := List.lookup_eq_some_iff.1 h
      rw [same]
      exact List.mem_append_right _ (List.mem_cons_self ..)

end LiveMigration.FileTree
