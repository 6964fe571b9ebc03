import LiveMigration.Proofs.Node.Enrolment
import LiveMigration.Proofs.Target.Key

/-!
Replicas and their keys. Registrations and marks go by keys, and the key of a target tells which
replica it is. So what is noted of a replica depends on nothing that is done for another one.
-/

namespace LiveMigration

namespace Chain

variable {σ ε : Type}

/-- The dumps of a chain, and which of them the target is known to hold. -/
def marks (c : Chain) (key : String) : List (Dump × Bool) :=
  c.links.map fun l => (l.dump, l.isHeldBy key)

theorem isHeldBy_mark_of_ne (l : Link) {key other : String} (ne : key ≠ other) :
    (l.mark key).isHeldBy other = l.isHeldBy other := by
  rw [Bool.eq_iff_iff, isHeldBy_mark]
  exact or_iff_left ne.symm

theorem Sends.marks_eq {send : Send σ ε} {key other : String} {a b : Chain × σ}
    (h : Sends send key a b) (ne : key ≠ other) : b.1.marks other = a.1.marks other := by
  cases h with
  | arrived => simp [marks, isHeldBy_mark_of_ne _ ne]
  | lost => rfl

theorem marks_of_sends {send : Send σ ε} {key other : String} {a b : Chain × σ}
    (h : Relation.ReflTransGen (Sends send key) a b) (ne : key ≠ other) :
    b.1.marks other = a.1.marks other := by
  induction h with
  | refl => rfl
  | tail _ one ih => exact (one.marks_eq ne).trans ih

/-- A pass to a target sets no mark for another one. -/
theorem marks_perform (c : Chain) {act : Act σ ε} {key other : String}
    (acts : act.key? = some key) (ne : key ≠ other) (s : σ) :
    (act.perform c s).1.after.marks other = c.marks other := by
  cases act with
  | push => cases acts
  | sync _ send =>
      cases acts
      exact marks_of_sends (c.sends_sync send key s) ne
  | sendAll _ send =>
      cases acts
      exact marks_of_sends (c.sends_sendAll send key s) ne

end Chain

namespace Register

variable {σ ε : Type} {r : Register} {t u : Target} {key other : String}

/-- What a register has noted of a target: the registration and the marks on both chains. -/
structure Notes where
  registered : Option Target
  current : List (Dump × Bool)
  closed : Option (List (Dump × Bool))
  deriving DecidableEq

def notes (r : Register) (key : String) : Notes :=
  ⟨r.registered key, r.chain.marks key, r.closed.map (·.marks key)⟩

namespace Operation

/-- The key that an operation is about. -/
def key? : Operation σ ε → Option String
  | add t => some t.key
  | remove key => some key
  | work _ act _ => act.key?
  | _ => none

end Operation

theorem registered_addTarget_of_ne (ne : t.key ≠ other) :
    (r.addTarget t).2.registered other = r.registered other := by
  cases there : r.hasTarget t.key with
  | true => rw [addTarget_of_has there]
  | false =>
      rw [addTarget_of_not there, registered, setTargets, List.find?_append,
        List.find?_cons_of_neg (by simpa using ne), List.find?_nil, Option.or_none, registered]

theorem registered_removeTarget_of_ne (ne : key ≠ other) :
    (r.removeTarget key).2.registered other = r.registered other := by
  rw [registered, registered, targets_removeTarget]
  induction r.targets with
  | nil => rfl
  | cons x xs ih =>
      by_cases same : x.key = key
      · rw [List.eraseP_cons_of_pos (by simpa using same),
          List.find?_cons_of_neg (by simpa [same] using ne)]
      · rw [List.eraseP_cons_of_neg (by simpa using same), List.find?_cons, List.find?_cons, ih]

theorem notes_addTarget (r : Register) (t : Target) (other : String) :
    (r.addTarget t).2.notes other =
      { r.notes other with registered := (r.addTarget t).2.registered other } := by
  obtain ⟨ts, ps, added⟩ := Node.Site.addTarget_eq r t
  rw [added]
  rfl

theorem notes_removeTarget (r : Register) (key other : String) :
    (r.removeTarget key).2.notes other =
      { r.notes other with registered := (r.removeTarget key).2.registered other } := by
  rw [Register.removeTarget]
  split <;> rfl

theorem notes_perform {op : Operation σ ε} (about : op.key? = some key) (ne : key ≠ other)
    (r : Register) : (op.perform r).notes other = r.notes other := by
  cases op with
  | add t =>
      cases about
      rw [Operation.perform, notes_addTarget, registered_addTarget_of_ne ne]
      rfl
  | remove key =>
      cases about
      rw [Operation.perform, notes_removeTarget, registered_removeTarget_of_ne ne]
      rfl
  | work place act s =>
      cases place with
      | current =>
          rw [notes, notes, ← Chain.marks_perform r.chain about ne s]
          rfl
      | closed =>
          -- Without a closed chain there is nothing to work on.
          have kept : (r.closed.map fun c => (act.perform c s).1.after).map (·.marks other) =
              r.closed.map (·.marks other) := by
            rw [Option.map_map]
            exact Option.map_congr fun c _ => Chain.marks_perform c about ne s
          rw [notes, notes, ← kept]
          rfl
  | changeStatus | changeStatusFrom | closeChain | adopt => cases about

/-- What is done for other replicas leaves alone what is noted of this one. -/
theorem notes_after {ops : List (Operation σ ε)}
    (others : ∀ op ∈ ops, ∃ t : Target, op.key? = some t.key ∧ ¬ t.SameReplica u) (r : Register) :
    (after ops r).notes u.key = r.notes u.key := by
  induction ops using List.reverseRecOn with
  | nil => rfl
  | append_singleton ops op ih =>
      obtain ⟨t, about, other⟩ := others op (List.mem_concat_self)
      rw [after_concat, notes_perform about fun same => other (Target.key_eq_iff.1 same)]
      exact ih fun op mem => others op (List.mem_append_left _ mem)

/-- A target is refused exactly if the same replica is registered. -/
theorem addTarget_eq_false_iff :
    (r.addTarget u).1 = false ↔ ∃ t ∈ r.targets, t.SameReplica u := by
  rw [← Bool.not_eq_true, addTarget_eq_true_iff]
  simp [Target.key_eq_iff]

theorem isHeldBy_mark_iff (l : Link) (t u : Target) :
    (l.mark t.key).isHeldBy u.key = true ↔ l.isHeldBy u.key = true ∨ t.SameReplica u := by
  rw [Chain.isHeldBy_mark, ← Target.key_eq_iff]
  exact or_congr_right eq_comm

/-- Two targets have one key exactly if they have the same port and the same host in brackets,
which is one host or a bare one and the same in brackets. So a target is refused only because of
the same replica, a mark is set for the same replica only, and what is noted of a replica stays
whatever is done for others. -/
theorem target_identity :
    (∀ t u : Target, t.key = u.key ↔
      t.rpcPort = u.rpcPort ∧ Target.bracketed t.host = Target.bracketed u.host) ∧
    (∀ a b, Target.bracketed a = Target.bracketed b ↔ Target.SameHost a b) ∧
    (∀ (r : Register) (u : Target),
      (r.addTarget u).1 = false ↔ ∃ t ∈ r.targets, t.SameReplica u) ∧
    (∀ (l : Link) (t u : Target),
      (l.mark t.key).isHeldBy u.key = true ↔ l.isHeldBy u.key = true ∨ t.SameReplica u) ∧
    ∀ (ops : List (Operation σ ε)) (u : Target),
      (∀ op ∈ ops, ∃ t : Target, op.key? = some t.key ∧ ¬ t.SameReplica u) →
        ∀ r, (after ops r).notes u.key = r.notes u.key :=
  ⟨fun _ _ => Target.key_eq_iff, fun _ _ => Target.bracketed_eq_iff,
    fun _ _ => addTarget_eq_false_iff, isHeldBy_mark_iff, fun _ _ => notes_after⟩

/-- A replica that holds the one dump that there is. -/
def sampleReplicated : Register :=
  after (σ := Unit) (ε := Unit) [.add (sampleTarget "::1"), .work .current (.push ⟨.pre, 1, 0⟩) (),
    .work .current (.sync (sampleTarget "::1").key (Chain.losing [])) ()] .initial

/-- Others join and go whose hosts look much like its own. -/
def sampleOthers : List (Operation Unit Unit) :=
  [.add (sampleTarget "[::1"),
    .work .current (.sync (sampleTarget "[::1").key (Chain.losing [])) (),
    .add (sampleTarget "::1]"), .remove (sampleTarget "[::1").key]

/-- In brackets it is refused as the same replica. The others are not, and they leave its mark and
its registration alone. -/
theorem target_identity_sample :
    (sampleTarget "::1").key = (sampleTarget "[::1]").key ∧
      (sampleReplicated.addTarget (sampleTarget "[::1]")).1 = false ∧
      (sampleReplicated.addTarget (sampleTarget "[::1")).1 = true ∧
      (after sampleOthers sampleReplicated).notes (sampleTarget "::1").key =
        ⟨some (sampleTarget "::1"), [(⟨.pre, 1, 0⟩, true)], none⟩ := by
  obtain ⟨keys, hosts, refused, -, stays⟩ := target_identity (σ := Unit) (ε := Unit)
  have wrapped : Target.bracketed "::1" = Target.bracketed "[::1]" := by decide +kernel
  have unclosed : ¬ (sampleTarget "[::1").SameReplica (sampleTarget "::1") :=
    fun same => absurd same.2 (by decide +kernel)
  have unopened : ¬ (sampleTarget "::1]").SameReplica (sampleTarget "::1") :=
    fun same => absurd same.2 (by decide +kernel)
  have there : sampleReplicated.targets = [sampleTarget "::1"] := by decide +kernel
  have others : ∀ op ∈ sampleOthers, ∃ t : Target, op.key? = some t.key ∧
      ¬ t.SameReplica (sampleTarget "::1") :=
    List.forall_mem_cons.2 ⟨⟨_, rfl, unclosed⟩, List.forall_mem_cons.2 ⟨⟨_, rfl, unclosed⟩,
      List.forall_mem_cons.2 ⟨⟨_, rfl, unopened⟩, List.forall_mem_singleton.2 ⟨_, rfl, unclosed⟩⟩⟩⟩
  refine ⟨(keys _ _).2 ⟨rfl, wrapped⟩, ?_, ?_, (stays _ _ others _).trans (by decide +kernel)⟩
  · exact (refused _ _).2 ⟨sampleTarget "::1", by simp [there], rfl, wrapped⟩
  · rw [← Bool.not_eq_false, refused, there]
    rintro ⟨t, mem, same⟩
    rw [List.mem_singleton.1 mem] at same
    exact unclosed ⟨same.1.symm, same.2.symm⟩

end Register

end LiveMigration
