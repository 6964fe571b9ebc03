import LiveMigration.Proofs.Chain.Bookkeeping
import LiveMigration.Proofs.Node.Registry

/-!
The targets of a register over its whole history. Which targets are registered can be told from
what was added and removed alone: a key is taken if it was added and has not been removed since,
and its target is the first one that was added while the key was free. The targets are listed in
the order in which they came in, and the copy for readers without the lock is the same list.
-/

namespace LiveMigration.Register

variable {σ ε : Type}

/-- One of the two chains of a register. -/
inductive Place
  | current
  | closed

def onChain (r : Register) (place : Place) (f : Chain → Chain) : Register :=
  match place with
  | .current => { r with chain := f r.chain }
  | .closed => { r with closed := r.closed.map f }

/-- What is done with the targets, the status and the chains of a register. A chain is worked on
by a sender in any state of its own; a chain is adopted with a container that is taken over. -/
inductive Operation (σ ε : Type)
  | add (t : Target)
  | remove (key : String)
  | changeStatus (target : Status)
  | changeStatusFrom (source target : Status)
  | work (place : Place) (act : Chain.Act σ ε) (s : σ)
  | closeChain
  | adopt (ds : List Dump)

namespace Operation

/-- A change of the status that is not allowed leaves the register as it is. -/
def perform (op : Operation σ ε) (r : Register) : Register :=
  match op with
  | add t => (r.addTarget t).2
  | remove key => (r.removeTarget key).2
  | changeStatus target => (r.changeStatus target).toOption.getD r
  | changeStatusFrom source target =>
    ((r.changeStatusFrom source target).toOption.map Prod.snd).getD r
  | work place act s => r.onChain place fun c => (act.perform c s).1.after
  | closeChain => r.closeChain
  | adopt ds => { r with chain := .ofDumps ds, closed := none }

/-- The operation is about the targets. -/
def enlists : Operation σ ε → Bool
  | add _ | remove _ => true
  | _ => false

theorem perform_of_not_enlists {op : Operation σ ε} (h : op.enlists = false) (r : Register) :
    (op.perform r).targets = r.targets ∧ (op.perform r).published = r.published := by
  cases op with
  | add | remove => cases h
  | changeStatus target =>
      rw [perform, Register.changeStatus]
      cases r.status.check target <;> exact ⟨rfl, rfl⟩
  | changeStatusFrom source target =>
      rw [perform, Register.changeStatusFrom, Register.changeStatus]
      by_cases status : r.status = source
      · rw [if_pos status]
        cases r.status.check target <;> exact ⟨rfl, rfl⟩
      · rw [if_neg status]
        exact ⟨rfl, rfl⟩
  | work place => cases place <;> exact ⟨rfl, rfl⟩
  | closeChain | adopt => exact ⟨rfl, rfl⟩

end Operation

/-- One operation after another. -/
def after (ops : List (Operation σ ε)) (r : Register) : Register :=
  ops.foldl (fun r op => op.perform r) r

theorem after_concat (ops : List (Operation σ ε)) (op : Operation σ ε) (r : Register) :
    after (ops ++ [op]) r = op.perform (after ops r) :=
  List.foldl_concat ..

/-! ## Histories -/

/-- Operation `m` of a history adds a target whose key is not removed later on. -/
structure Stands (ops : List (Operation σ ε)) (m : Nat) (t : Target) : Prop where
  added : ops[m]? = some (.add t)
  kept : .remove t.key ∉ ops.drop (m + 1)

/-- The key was added and has not been removed since. -/
def Taken (ops : List (Operation σ ε)) (key : String) : Prop :=
  ∃ m t, Stands ops m t ∧ t.key = key

/-- Operation `m` of a history registers a target that is still there in the end: its key was
free at that time. -/
structure Registers (ops : List (Operation σ ε)) (m : Nat) (t : Target) : Prop
    extends Stands ops m t where
  new : ¬ Taken (ops.take m) t.key

variable {ops : List (Operation σ ε)} {op : Operation σ ε} {m : Nat} {t : Target} {key : String}
  {r : Register}

theorem Stands.lt_length (h : Stands ops m t) : m < ops.length :=
  (List.getElem?_eq_some_iff.1 h.added).1

theorem stands_concat :
    Stands (ops ++ [op]) m t ↔
      m = ops.length ∧ op = .add t ∨ Stands ops m t ∧ op ≠ .remove t.key := by
  constructor
  · rintro ⟨added, kept⟩
    rcases Nat.lt_or_ge m ops.length with early | late
    · rw [List.getElem?_append_left early] at added
      rw [List.drop_append_of_le_length early, List.mem_append, List.mem_singleton, not_or] at kept
      exact .inr ⟨⟨added, kept.1⟩, Ne.symm kept.2⟩
    · have last : m = ops.length := by
        have := (List.getElem?_eq_some_iff.1 added).1
        rw [List.length_append, List.length_singleton] at this
        omega
      subst last
      rw [List.getElem?_concat_length] at added
      exact .inl ⟨rfl, Option.some.inj added⟩
  · rintro (⟨rfl, rfl⟩ | ⟨stands, other⟩)
    · refine ⟨List.getElem?_concat_length, ?_⟩
      rw [List.drop_eq_nil_of_le (by simp)]
      exact List.not_mem_nil
    · have early := stands.lt_length
      refine ⟨(List.getElem?_append_left early).trans stands.added, ?_⟩
      rw [List.drop_append_of_le_length early, List.mem_append, List.mem_singleton, not_or]
      exact ⟨stands.kept, Ne.symm other⟩

theorem taken_concat :
    Taken (ops ++ [op]) key ↔
      (∃ t, op = .add t ∧ t.key = key) ∨ Taken ops key ∧ op ≠ .remove key := by
  constructor
  · rintro ⟨m, t, stands, rfl⟩
    obtain ⟨-, added⟩ | ⟨stands, other⟩ := stands_concat.1 stands
    · exact .inl ⟨t, added, rfl⟩
    · exact .inr ⟨⟨m, t, stands, rfl⟩, other⟩
  · rintro (⟨t, rfl, rfl⟩ | ⟨⟨m, t, stands, rfl⟩, other⟩)
    · exact ⟨ops.length, t, stands_concat.2 (.inl ⟨rfl, rfl⟩), rfl⟩
    · exact ⟨m, t, stands_concat.2 (.inr ⟨stands, other⟩), rfl⟩

theorem registers_concat :
    Registers (ops ++ [op]) m t ↔
      (m = ops.length ∧ op = .add t ∧ ¬ Taken ops t.key) ∨
        Registers ops m t ∧ op ≠ .remove t.key := by
  constructor
  · rintro ⟨stands, new⟩
    obtain ⟨rfl, added⟩ | ⟨stands, other⟩ := stands_concat.1 stands
    · rw [List.take_left] at new
      exact .inl ⟨rfl, added, new⟩
    · rw [List.take_append_of_le_length (Nat.le_of_lt stands.lt_length)] at new
      exact .inr ⟨⟨stands, new⟩, other⟩
  · rintro (⟨rfl, added, new⟩ | ⟨⟨stands, new⟩, other⟩)
    · refine ⟨stands_concat.2 (.inl ⟨rfl, added⟩), ?_⟩
      rwa [List.take_left]
    · refine ⟨stands_concat.2 (.inr ⟨stands, other⟩), ?_⟩
      rwa [List.take_append_of_le_length (Nat.le_of_lt stands.lt_length)]

theorem taken_add : Taken (ops ++ [.add t]) key ↔ t.key = key ∨ Taken ops key := by
  simp [taken_concat]

theorem taken_remove {other : String} :
    Taken (ops ++ [.remove key]) other ↔ Taken ops other ∧ key ≠ other := by
  simp [taken_concat]

theorem registers_add {x : Target} :
    Registers (ops ++ [.add t]) m x ↔
      (m = ops.length ∧ t = x ∧ ¬ Taken ops x.key) ∨ Registers ops m x := by
  simp [registers_concat]

theorem registers_remove :
    Registers (ops ++ [.remove key]) m t ↔ Registers ops m t ∧ key ≠ t.key := by
  simp [registers_concat]

/-! ## The targets in order -/

/-- The targets are those that the history has registered, in the order of the operations that
did it. -/
def Listed (ops : List (Operation σ ε)) (targets : List Target) : Prop :=
  ∃ entries : List (Nat × Target), entries.map Prod.snd = targets ∧
    entries.Pairwise (·.1 < ·.1) ∧ ∀ m t, (m, t) ∈ entries ↔ Registers ops m t

variable {targets : List Target}

theorem Listed.add_new (h : Listed ops targets) (free : ¬ Taken ops t.key) :
    Listed (ops ++ [.add t]) (targets ++ [t]) := by
  obtain ⟨entries, rfl, sorted, listed⟩ := h
  refine ⟨entries ++ [(ops.length, t)], List.map_append, ?_, fun m x => ?_⟩
  · refine List.pairwise_append.2 ⟨sorted, List.pairwise_singleton .., ?_⟩
    rintro ⟨m, x⟩ mem _ last
    rw [List.mem_singleton.1 last]
    exact ((listed m x).1 mem).lt_length
  · rw [List.mem_append, List.mem_singleton, Prod.mk.injEq, listed, registers_add, or_comm]
    refine or_congr_left (and_congr_right fun _ => ?_)
    constructor
    · rintro rfl
      exact ⟨rfl, free⟩
    · exact fun h => h.1.symm

theorem Listed.add_old (h : Listed ops targets) (taken : Taken ops t.key) :
    Listed (ops ++ [.add t]) targets := by
  obtain ⟨entries, map, sorted, listed⟩ := h
  refine ⟨entries, map, sorted, fun m x => ?_⟩
  rw [listed, registers_add]
  refine (or_iff_right ?_).symm
  rintro ⟨-, rfl, free⟩
  exact free taken

theorem Listed.remove (h : Listed ops targets) (key : String) :
    Listed (ops ++ [.remove key]) (targets.filter (·.key != key)) := by
  obtain ⟨entries, rfl, sorted, listed⟩ := h
  refine ⟨entries.filter (·.2.key != key), ?_, sorted.filter _, fun m t => ?_⟩
  · rw [List.filter_map]
    rfl
  · rw [List.mem_filter, listed, registers_remove, bne_iff_ne, ne_comm]

/-! ## What a history leaves -/

theorem hasTarget_addTarget_iff :
    (r.addTarget t).2.hasTarget key = true ↔ t.key = key ∨ r.hasTarget key = true := by
  cases there : r.hasTarget t.key with
  | true =>
      rw [addTarget_of_has there]
      refine (or_iff_right_of_imp ?_).symm
      rintro rfl
      exact there
  | false =>
      rw [addTarget_of_not there]
      simp [hasTarget, setTargets, or_comm]

theorem Orderly.hasTarget_removeTarget_iff (h : r.Orderly) {other : String} :
    (r.removeTarget key).2.hasTarget other = true ↔ r.hasTarget other = true ∧ key ≠ other := by
  rw [hasTarget_iff, hasTarget_iff]
  constructor
  · rintro ⟨x, mem, rfl⟩
    obtain ⟨mem, ne⟩ := h.mem_removeTarget.1 mem
    exact ⟨⟨x, mem, rfl⟩, ne.symm⟩
  · rintro ⟨⟨x, mem, rfl⟩, ne⟩
    exact ⟨x, h.mem_removeTarget.2 ⟨mem, ne.symm⟩, rfl⟩

/-- The targets of a register are told by its history. -/
structure Roll (ops : List (Operation σ ε)) (r : Register) : Prop where
  orderly : r.Orderly
  taken : ∀ key, r.hasTarget key = true ↔ Taken ops key
  listed : Listed ops r.targets

theorem roll_initial : Roll ([] : List (Operation σ ε)) .initial := by
  refine ⟨⟨rfl, List.nodup_nil⟩, fun key => iff_of_false nofun ?_, [], rfl, .nil, fun m t => ?_⟩
  · rintro ⟨m, t, stands, -⟩
    exact absurd stands.lt_length (Nat.not_lt_zero m)
  · exact iff_of_false List.not_mem_nil fun h => absurd h.lt_length (Nat.not_lt_zero m)

theorem Roll.add (h : Roll ops r) (t : Target) : Roll (ops ++ [.add t]) (r.addTarget t).2 := by
  refine ⟨h.orderly.addTarget t, fun key => ?_, ?_⟩
  · rw [hasTarget_addTarget_iff, taken_add, h.taken]
  · cases there : r.hasTarget t.key with
    | true =>
        rw [addTarget_of_has there]
        exact h.listed.add_old ((h.taken t.key).1 there)
    | false =>
        rw [addTarget_of_not there]
        refine h.listed.add_new fun taken => ?_
        rw [(h.taken t.key).2 taken] at there
        cases there

theorem Roll.remove (h : Roll ops r) (key : String) :
    Roll (ops ++ [.remove key]) (r.removeTarget key).2 := by
  refine ⟨h.orderly.removeTarget key, fun other => ?_, ?_⟩
  · rw [h.orderly.hasTarget_removeTarget_iff, taken_remove, h.taken]
  · -- No two targets have this key, so taking out the first one takes out all of them.
    rw [h.orderly.targets_removeTarget]
    exact h.listed.remove key

theorem Roll.other (h : Roll ops r) (other : op.enlists = false) :
    Roll (ops ++ [op]) (op.perform r) := by
  obtain ⟨same, published⟩ := op.perform_of_not_enlists other r
  have adds (t : Target) : op ≠ .add t := by
    rintro rfl
    cases other
  have removes (key : String) : op ≠ .remove key := by
    rintro rfl
    cases other
  refine ⟨h.orderly.congr same published, fun key => ?_, ?_⟩
  · rw [hasTarget, same, ← hasTarget, h.taken, taken_concat]
    simp [adds, removes]
  · rw [same]
    simpa [Listed, registers_concat, adds, removes] using h.listed

theorem Roll.perform (h : Roll ops r) (op : Operation σ ε) :
    Roll (ops ++ [op]) (op.perform r) := by
  cases op with
  | add t => exact h.add t
  | remove key => exact h.remove key
  | changeStatus | changeStatusFrom | work | closeChain | adopt => exact h.other rfl

theorem roll_after (ops : List (Operation σ ε)) : Roll ops (after ops .initial) := by
  -- The last operation is taken off, since which keys are free depends on what was before.
  induction ops using List.reverseRecOn with
  | nil => exact roll_initial
  | append_singleton ops op ih =>
      rw [after_concat]
      exact ih.perform op

/-- Whatever was done with a fresh register, its copy of the targets is up to date, no key is
registered twice, and the targets stand in the order in which the history has registered them; a
key is registered if the history has it added and not removed since. A target is new to it exactly
if its key is not there, and a key is removed by taking out the one target that has it. -/
theorem target_register (ops : List (Operation σ ε)) :
    let r := after ops .initial
    r.published = r.targets ∧ (r.targets.map Target.key).Nodup ∧
    Listed ops r.targets ∧ (∀ key, (∃ x ∈ r.targets, x.key = key) ↔ Taken ops key) ∧
    (∀ t, (r.addTarget t).1 = true ↔ ∀ x ∈ r.targets, x.key ≠ t.key) ∧
    ∀ key, (∀ x ∈ r.targets, x.key ≠ key) ∧ r.removeTarget key = (none, r) ∨
      ∃ before t behind, r.targets = before ++ t :: behind ∧ t.key = key ∧
        (∀ x ∈ before ++ behind, x.key ≠ key) ∧
        r.removeTarget key = (some t, r.setTargets (before ++ behind)) := by
  have roll := roll_after ops
  exact ⟨roll.orderly.published, roll.orderly.distinct, roll.listed,
    fun key => hasTarget_iff.symm.trans (roll.taken key), fun t => addTarget_eq_true_iff,
    roll.orderly.removeTarget_cases⟩

def sampleTarget (host : String) : Target :=
  ⟨host, ⟨4000, by decide⟩, ⟨[]⟩, ⟨4001, by decide⟩⟩

/-- Two replicas join, the first one once more with another host that has the same key, and this
one again after the key was removed. -/
def sampleHistory : List (Operation Unit Unit) :=
  [.changeStatus .standBy, .add (sampleTarget "::1"), .add (sampleTarget "b"),
    .add (sampleTarget "[::1]"), .work .current (.push ⟨.pre, 1, 0⟩) (), .remove "[::1]:4000",
    .changeStatus .migrating, .add (sampleTarget "[::1]")]

/-- The replica that joined again is behind the other one, with the host that it has now. -/
theorem target_register_sample :
    (after sampleHistory .initial).targets = [sampleTarget "b", sampleTarget "[::1]"] ∧
      (after sampleHistory .initial).published = [sampleTarget "b", sampleTarget "[::1]"] ∧
      Taken sampleHistory "[::1]:4000" ∧
      ((after sampleHistory .initial).addTarget (sampleTarget "::1")).1 = false := by
  obtain ⟨published, -, -, taken, added, -⟩ := target_register sampleHistory
  have targets : (after sampleHistory .initial).targets =
      [sampleTarget "b", sampleTarget "[::1]"] := by decide +kernel
  have same : (sampleTarget "[::1]").key = (sampleTarget "::1").key := by decide +kernel
  have key : (sampleTarget "[::1]").key = "[::1]:4000" := by decide +kernel
  have last : sampleTarget "[::1]" ∈ (after sampleHistory .initial).targets := by simp [targets]
  refine ⟨targets, published.trans targets, (taken _).1 ⟨_, last, key⟩, ?_⟩
  exact Bool.eq_false_iff.2 fun new => (added _).1 new _ last same

end LiveMigration.Register
