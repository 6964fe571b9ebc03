import LiveMigration.Proofs.Node.Holdings
import Mathlib.Data.List.Nodup

/-!
The targets that a node has registered. A key is registered once at most, and the copy for readers
without the lock is up to date. A join of a key that is registered changes nothing; the end of a
round of pings removes the keys that were silent and leaves the others.
-/

namespace LiveMigration

namespace Register

variable {r : Register} {t x : Target} {key : String}

/-- The target that is registered with a key. -/
def registered (r : Register) (key : String) : Option Target := r.targets.find? (·.key == key)

structure Orderly (r : Register) : Prop where
  published : r.published = r.targets
  distinct : (r.targets.map Target.key).Nodup

theorem hasTarget_iff : r.hasTarget key = true ↔ ∃ t ∈ r.targets, t.key = key := by
  simp [hasTarget]

theorem not_hasTarget_iff : r.hasTarget key = false ↔ key ∉ r.targets.map Target.key := by
  simp [hasTarget]

theorem registered_eq_none : r.registered key = none ↔ r.hasTarget key = false := by
  simp [registered, hasTarget]

theorem Orderly.eq_of_key (h : r.Orderly) (ht : t ∈ r.targets) (hx : x ∈ r.targets)
    (same : x.key = t.key) : x = t :=
  List.inj_on_of_nodup_map h.distinct hx ht same

theorem Orderly.registered_eq_some (h : r.Orderly) :
    r.registered key = some t ↔ t ∈ r.targets ∧ t.key = key := by
  refine ⟨fun found => ?_, ?_⟩
  · exact ⟨List.mem_of_find?_eq_some found, by simpa using List.find?_some found⟩
  · rintro ⟨there, rfl⟩
    cases found : r.registered t.key with
    | none =>
        have absent := registered_eq_none.1 found
        exact absurd (List.mem_map_of_mem there) (not_hasTarget_iff.1 absent)
    | some x =>
        have same : x.key = t.key := by simpa using List.find?_some found
        exact congrArg some (h.eq_of_key there (List.mem_of_find?_eq_some found) same)

/-! ## Joining -/

theorem addTarget_of_has (h : r.hasTarget t.key = true) : (r.addTarget t).2 = r := by
  rw [addTarget, if_pos h]

theorem addTarget_of_not (h : r.hasTarget t.key = false) :
    (r.addTarget t).2 = r.setTargets (r.targets ++ [t]) := by
  rw [addTarget, if_neg (by rw [h]; exact nofun)]

theorem addTarget_eq_true_iff :
    (r.addTarget t).1 = true ↔ ∀ x ∈ r.targets, x.key ≠ t.key := by
  rw [addTarget]
  cases there : r.hasTarget t.key with
  | true =>
      obtain ⟨x, mem, same⟩ := hasTarget_iff.1 there
      exact iff_of_false nofun fun free => free x mem same
  | false =>
      refine iff_of_true rfl fun x mem same => not_hasTarget_iff.1 there ?_
      exact same ▸ List.mem_map_of_mem mem

theorem Orderly.addTarget (h : r.Orderly) (t : Target) : (r.addTarget t).2.Orderly := by
  cases there : r.hasTarget t.key with
  | true =>
      rw [addTarget_of_has there]
      exact h
  | false =>
      rw [addTarget_of_not there]
      refine ⟨rfl, ?_⟩
      rw [setTargets, List.map_append, List.map_cons, List.map_nil, List.nodup_append_comm,
        List.singleton_append]
      exact List.nodup_cons.2 ⟨not_hasTarget_iff.1 there, h.distinct⟩

theorem mem_addTarget :
    x ∈ (r.addTarget t).2.targets ↔ x ∈ r.targets ∨ r.hasTarget t.key = false ∧ x = t := by
  cases there : r.hasTarget t.key with
  | true => simp [addTarget_of_has there]
  | false => simp [addTarget_of_not there, setTargets]

/-- The registration that was there stays. -/
theorem registered_addTarget :
    (r.addTarget t).2.registered t.key = some ((r.registered t.key).getD t) := by
  cases there : r.hasTarget t.key with
  | true =>
      rw [addTarget_of_has there]
      cases found : r.registered t.key with
      | none =>
          rw [registered_eq_none.1 found] at there
          cases there
      | some x => rfl
  | false =>
      have absent := registered_eq_none.2 there
      rw [addTarget_of_not there, absent]
      rw [registered] at absent
      simp [registered, setTargets, absent]

/-! ## The end of a round -/

theorem targets_removeTarget :
    (r.removeTarget key).2.targets = r.targets.eraseP (·.key == key) := by
  unfold removeTarget
  cases found : r.targets.find? (·.key == key) with
  | none =>
      refine (List.eraseP_of_forall_not ?_).symm
      simpa using found
  | some t => rfl

theorem Orderly.removeTarget (h : r.Orderly) (key : String) : (r.removeTarget key).2.Orderly := by
  have kept : ((r.removeTarget key).2.targets.map Target.key).Nodup := by
    rw [targets_removeTarget]
    exact h.distinct.sublist ((List.eraseP_sublist ..).map _)
  refine ⟨?_, kept⟩
  unfold Register.removeTarget
  split
  · rfl
  · exact h.published

/-- The one target with the key goes, and the others stay in their order; without such a target
nothing is done. -/
theorem Orderly.removeTarget_cases (h : r.Orderly) (key : String) :
    (∀ x ∈ r.targets, x.key ≠ key) ∧ r.removeTarget key = (none, r) ∨
      ∃ before t behind, r.targets = before ++ t :: behind ∧ t.key = key ∧
        (∀ x ∈ before ++ behind, x.key ≠ key) ∧
        r.removeTarget key = (some t, r.setTargets (before ++ behind)) := by
  unfold Register.removeTarget
  cases found : r.targets.find? (·.key == key) with
  | none => exact .inl ⟨by simpa using found, rfl⟩
  | some t =>
      obtain ⟨same, before, behind, targets, free⟩ := List.find?_eq_some_iff_append.1 found
      have same : t.key = key := by simpa using same
      have free : ∀ x ∈ before, x.key ≠ key := by simpa using free
      have rest : r.targets.eraseP (·.key == key) = before ++ behind := by
        rw [targets, List.eraseP_append_right _ (by simpa using free),
          List.eraseP_cons_of_pos (by simpa using same)]
      have distinct := h.distinct
      rw [targets, List.map_append, List.map_cons, List.nodup_middle, List.nodup_cons,
        ← List.map_append, same] at distinct
      refine .inr ⟨before, t, behind, targets, same, fun x mem eq => ?_, by rw [rest]⟩
      exact distinct.1 (eq ▸ List.mem_map_of_mem mem)

theorem Orderly.targets_removeTarget (h : r.Orderly) (key : String) :
    (r.removeTarget key).2.targets = r.targets.filter (·.key != key) := by
  obtain ⟨free, same⟩ | ⟨before, t, behind, targets, rfl, free, same⟩ := h.removeTarget_cases key
  · rw [same, List.filter_eq_self.2 (by simpa using free)]
  · have others : (before ++ behind).filter (·.key != t.key) = before ++ behind :=
      List.filter_eq_self.2 (by simpa using free)
    rw [same, targets, List.filter_append, List.filter_cons_of_neg (by simp),
      ← List.filter_append, others]
    rfl

theorem Orderly.mem_removeTarget (h : r.Orderly) :
    x ∈ (r.removeTarget key).2.targets ↔ x ∈ r.targets ∧ x.key ≠ key := by
  rw [h.targets_removeTarget, List.mem_filter, bne_iff_ne]

end Register

namespace Node

theorem Site.dropTargets_eq_foldl (silent : List Target) (r : Register) :
    (dropTargets silent r).2 = silent.foldl (fun r t => (r.removeTarget t.key).2) r := by
  unfold dropTargets
  generalize 0 = n
  induction silent generalizing n r with
  | nil => rfl
  | cons t ts ih =>
      rw [List.foldl_cons, List.foldl_cons]
      dsimp only
      rcases r.removeTarget t.key with ⟨_ | _, r'⟩
      · exact ih r' n
      · exact ih r' (n + 1)

end Node

open Node

namespace Register

variable {r : Register}

theorem dropTargets_subset (silent : List Target) (r : Register) :
    (Site.dropTargets silent r).2.targets ⊆ r.targets := by
  rw [Site.dropTargets_eq_foldl]
  induction silent generalizing r with
  | nil => exact List.Subset.refl _
  | cons t ts ih =>
      intro x there
      have there := ih _ there
      rw [targets_removeTarget] at there
      exact List.mem_of_mem_eraseP there

/-- A round drops the keys that were silent, and no others. -/
theorem Orderly.dropTargets (h : r.Orderly) (silent : List Target) :
    (Site.dropTargets silent r).2.Orderly ∧ ∀ x, x ∈ (Site.dropTargets silent r).2.targets ↔
      x ∈ r.targets ∧ ∀ t ∈ silent, x.key ≠ t.key := by
  rw [Site.dropTargets_eq_foldl]
  induction silent generalizing r with
  | nil => exact ⟨h, by simp⟩
  | cons t ts ih =>
      obtain ⟨orderly, mem⟩ := ih (h.removeTarget t.key)
      refine ⟨orderly, fun x => ?_⟩
      rw [List.foldl_cons, mem, h.mem_removeTarget, List.forall_mem_cons, and_assoc]

theorem Orderly.congr {r' : Register} (h : r.Orderly) (targets : r'.targets = r.targets)
    (published : r'.published = r.published) : r'.Orderly :=
  ⟨by rw [targets, published, h.published], by rw [targets]; exact h.distinct⟩

end Register

namespace Node

variable {σ : Type} {settings : Settings} {rig : Rig σ} {w w' : Working σ} {e : Event} {a : Answer}

/-- What an event does to the targets of a node. -/
inductive Enlists (w : Working σ) : Event → Working σ → Prop
  | keeps {e : Event} {w' : Working σ}
      (targets : w'.site.register.targets = w.site.register.targets)
      (published : w'.site.register.published = w.site.register.published) : Enlists w e w'
  | adds {host : String} {m : Rpc.Join} {w' : Working σ}
      (targets : w'.site.register.targets =
        (w.site.register.addTarget (Site.targetOf host m)).2.targets)
      (published : w'.site.register.published =
        (w.site.register.addTarget (Site.targetOf host m)).2.published) :
      Enlists w (.message host (.join m)) w'
  | drops {e : Event} (silent : List Target) {w' : Working σ} (round : e.endsRound = true)
      (targets : w'.site.register.targets = (Site.dropTargets silent w.site.register).2.targets)
      (published : w'.site.register.published =
        (Site.dropTargets silent w.site.register).2.published) : Enlists w e w'

theorem Touches.enlists (h : Touches w e a w') : Enlists w e w' := by
  cases h with
  | keeps same | runs same | follows same | adopts _ same | accepts _ same | ends _ same =>
      exact .keeps (congrArg Holdings.targets same) (congrArg Holdings.published same)
  | learns _ _ same | restores _ _ same | settles _ same =>
      exact .keeps (congrArg Holdings.targets same) (congrArg Holdings.published same)
  | registers _ same =>
      exact .adds (congrArg Holdings.targets same) (congrArg Holdings.published same)
  | drops silent round same =>
      exact .drops silent round (congrArg Holdings.targets same)
        (congrArg Holdings.published same)

theorem enlists_of_perform (h : e.perform settings rig w = some (a, w')) : Enlists w e w' :=
  (touches_of_perform h).enlists

theorem Enlists.orderly (h : Enlists w e w') (o : w.site.register.Orderly) :
    w'.site.register.Orderly := by
  cases h with
  | keeps targets published => exact o.congr targets published
  | adds targets published => exact (o.addTarget _).congr targets published
  | drops silent _ targets published => exact (o.dropTargets silent).1.congr targets published

theorem Reached.orderly (h : Reached settings rig w) : w.site.register.Orderly := by
  obtain ⟨disk, env, ms, course⟩ := h
  exact course.preserves (P := fun w => w.site.register.Orderly) ⟨rfl, List.nodup_nil⟩
    fun o performed => (enlists_of_perform performed).orderly o

/-- The target that an event announces. -/
def Event.announced? : Event → Option Target
  | .message host (.join m) => some (Site.targetOf host m)
  | _ => none

theorem Enlists.mem_targets {t : Target} (h : Enlists w e w')
    (there : t ∈ w'.site.register.targets) :
    t ∈ w.site.register.targets ∨ e.announced? = some t := by
  cases h with
  | keeps targets => exact .inl (targets ▸ there)
  | adds targets =>
      rw [targets] at there
      exact (Register.mem_addTarget.1 there).imp_right fun new => congrArg some new.2.symm
  | drops silent _ targets =>
      rw [targets] at there
      exact .inl (Register.dropTargets_subset silent _ there)

/-- Nothing but the end of a round takes a target away. -/
theorem Enlists.targets_subset (h : Enlists w e w') (other : e.endsRound = false) :
    w.site.register.targets ⊆ w'.site.register.targets := by
  cases h with
  | keeps targets => exact targets ▸ List.Subset.refl _
  | adds targets =>
      rw [targets]
      exact fun t there => Register.mem_addTarget.2 (.inl there)
  | drops _ round =>
      rw [other] at round
      cases round

end Node

end LiveMigration
