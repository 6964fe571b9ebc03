import LiveMigration.Proofs.Node.Turns

/-!
Operations of a node that fail. Whatever an operation checks, it checks before it writes, and an
engine or a network that fails is asked before anything is noted down. So a failed operation
leaves the node itself as it was: its status, its task, both chains with their marks and its
targets. What a failing engine did to the disk is not undone.
-/

namespace LiveMigration.Node

variable {σ : Type} {settings : Settings} {rig : Rig σ}

namespace Site

variable {s s' : Site σ}

/-- An operation that reports a failure, or a tick that takes no dump, and the site after it. -/
inductive Refuses (settings : Settings) (rig : Rig σ) (s : Site σ) : Site σ → Prop
  | run {id : ContainerId} {bundle : Path} {e : NodeError} {s' : Site σ}
      (h : s.run rig id bundle = (.error e, s')) : Refuses settings rig s s'
  | tick {e : NodeError} {s' : Site σ}
      (h : s.dumpTick settings rig = (.error (.error e), s')) : Refuses settings rig s s'
  | noDump {s' : Site σ} (h : s.dumpTick settings rig = (.ok none, s')) :
      Refuses settings rig s s'
  | checkpoint {e : NodeError} {s' : Site σ}
      (h : s.checkpoint settings rig = (.error (.error e), s')) : Refuses settings rig s s'
  | migration {id : ContainerId} {e : NodeError} {s' : Site σ}
      (h : s.requestMigration id = (.error e, s')) : Refuses settings rig s s'
  | change {target : Status} {e : StatusError} {s' : Site σ}
      (h : s.changeStatus target = (.error e, s')) : Refuses settings rig s s'
  | leaving {entered next : Status} {e : StatusError}
      (h : s.register.changeStatusFrom entered next = .error e) :
      Refuses settings rig s (s.leave entered next)
  | message {host reason : String} {m : Rpc.Message} {s' : Site σ}
      (h : s.handle settings rig host m = (.error reason, s')) : Refuses settings rig s s'

theorem changeStatus_failed {target : Status} {e : StatusError}
    (h : s.changeStatus target = (.error e, s')) : s' = s := by
  unfold changeStatus at h
  split at h
  · cases h
  · cases h
    rfl

theorem leave_failed {entered next : Status} {e : StatusError}
    (h : s.register.changeStatusFrom entered next = .error e) : s.leave entered next = s := by
  rw [leave, h]

theorem run_failed {id : ContainerId} {bundle : Path} {e : NodeError}
    (h : s.run rig id bundle = (.error e, s')) : s' = s := by
  unfold run at h
  split at h
  · rename_i changed
    cases h
    exact changeStatus_failed changed
  · cases h

theorem requestMigration_failed {id : ContainerId} {e : NodeError}
    (h : s.requestMigration id = (.error e, s')) : s' = s := by
  unfold requestMigration at h
  split at h
  · cases h
    rfl
  split at h
  · cases h
    rfl
  split at h
  · cases h
    rfl
  split at h
  · rename_i changed
    cases h
    exact changeStatus_failed changed
  · cases h

theorem node_of_dumpTick {r : Attempt (Option Dump)} (h : s.dumpTick settings rig = (r, s'))
    (quiet : ∀ d, r ≠ .ok (some d)) : s'.node = s.node := by
  unfold dumpTick at h
  split at h
  · cases h
    rfl
  split at h
  · cases h
    rfl
  split at h
  · cases h
    rfl
  rename_i plan _
  split at h
  · rename_i taken
    cases h
    exact node_of_takeDump taken
  · cases h
    exact absurd rfl (quiet plan.dump)

theorem node_clearImage (image : Path) (s : Site σ) : (s.clearImage image).2.node = s.node := by
  unfold clearImage
  split
  · split <;> rfl
  · rfl

/-- A checkpoint is not part of a chain, so that even one that is taken leaves the node alone. -/
theorem node_checkpoint (s : Site σ) : (s.checkpoint settings rig).2.node = s.node := by
  unfold checkpoint
  split
  · rfl
  split
  · rfl
  split
  · rfl
  rename_i d _
  have cleared := node_clearImage (d.pathIn settings.dumpPath) s
  split <;> rename_i h <;> rw [h] at cleared
  · exact cleared
  split <;> rename_i taken <;> exact (node_of_takeDump taken).trans cleared

theorem onJoin_failed {host reason : String} {m : Rpc.Join}
    (h : s.onJoin rig host m = (.error reason, s')) : s' = s := by
  unfold onJoin at h
  split at h <;> cases h
  rfl

theorem onJoinAck_failed {reason : String} {m : Rpc.JoinAck}
    (h : s.onJoinAck m = (.error reason, s')) : s' = s := by
  unfold onJoinAck at h
  split at h <;> cases h
  rfl

/-- The change of the status comes after the new task was noted, but it cannot fail any more. -/
theorem onMigrate_failed {reason : String} {m : Rpc.Migrate}
    (h : s.onMigrate settings m = (.error reason, s')) : s' = s := by
  obtain same | ⟨ack, _, _, _⟩ := onMigrate_cases settings m s
  · rwa [h] at same
  · rw [h] at ack
    cases ack

theorem handle_failed {host reason : String} {m : Rpc.Message}
    (h : s.handle settings rig host m = (.error reason, s')) : s' = s := by
  cases m with
  | join m => exact onJoin_failed h
  | joinAck m => exact onJoinAck_failed h
  | ping => cases h
  | migrate m => exact onMigrate_failed h

theorem Refuses.leaves_node (refused : Refuses settings rig s s') : s'.node = s.node := by
  cases refused with
  | run h => rw [run_failed h]
  | tick h => exact node_of_dumpTick h nofun
  | noDump h => exact node_of_dumpTick h nofun
  | checkpoint h =>
      have same : (s.checkpoint settings rig).2.node = s.node := node_checkpoint s
      rwa [h] at same
  | migration h => rw [requestMigration_failed h]
  | change h => rw [changeStatus_failed h]
  | leaving h => rw [leave_failed h]
  | message h => rw [handle_failed h]

/-- A running node with a dump in its chain is asked to run another container. -/
theorem Refuses.leaves_node_sample :
    let s := (sampleAfter [.run sampleContainer Settings.sample.dumpPath, .tick]).site
    let s' := (s.run Rig.sample.recorded ⟨"other", by decide⟩ Settings.sample.dumpPath).2
    s.register.chain.names = ["p1"] ∧ s'.node = s.node := by
  intro s s'
  refine ⟨by decide, ?_⟩
  have ran : s.run Rig.sample.recorded ⟨"other", by decide⟩ Settings.sample.dumpPath =
      (.error (.status (.illegal .running .running)), s') := rfl
  have refused : Refuses .sample Rig.sample.recorded s s' := .run ran
  exact Refuses.leaves_node refused

end Site

/-! ## Events that fail -/

/-- The event was answered with a failure; a tick fails as well if it takes no dump. A request to
follow a source is left out: it notes the source and the bundle before it looks at the status. -/
inductive Event.Fails : Event → Answer → Prop
  | tick (e : NodeError) : Fails .tick (.dumped (.error e))
  | noDump : Fails .tick (.dumped (.ok none))
  | message {host : String} {m : Rpc.Message} (reason : String) :
      Fails (.message host m) (.reply (.error reason))
  | command {c : Control.Command} (e : NodeError) : Fails (.command c) (.outcome (.error e))
  | run {id : ContainerId} {bundle : Path} (e : NodeError) :
      Fails (.run id bundle) (.outcome (.error e))

theorem Site.execute_failed {c : Control.Command} {s s' : Site σ} {e : NodeError}
    (h : s.execute settings rig c = (.error (.error e), s')) :
    c = .checkpoint ∧ s.checkpoint settings rig = (.error (.error e), s') ∨
      ∃ id, c = .migrate id ∧ s.requestMigration id = (.error e, s') := by
  cases c with
  | checkpoint =>
      cases asked : s.checkpoint settings rig with
      | mk result after =>
          rw [execute, asked] at h
          cases result <;> cases h
          exact .inl ⟨rfl, rfl⟩
  | migrate id =>
      cases asked : s.requestMigration id with
      | mk result after =>
          rw [execute, asked] at h
          cases result <;> cases h
          exact .inr ⟨id, rfl, asked⟩

theorem refuses_of_fails {w w' : Working σ} {e : Event} {a : Answer} (failed : e.Fails a)
    (h : e.perform settings rig w = some (a, w')) :
    w'.activity = w.activity ∧ Site.Refuses settings rig.recorded w.site w'.site := by
  cases failed with
  | tick e =>
      obtain ⟨_, _, ticked, ⟨⟩, rfl⟩ := dumpTick_of_perform h
      exact ⟨rfl, .tick ticked⟩
  | noDump =>
      obtain ⟨_, _, ticked, ⟨⟩, rfl⟩ := dumpTick_of_perform h
      exact ⟨rfl, .noDump ticked⟩
  | message reason =>
      obtain ⟨replied, rfl⟩ := Prod.mk.inj (Option.some.inj h)
      exact ⟨rfl, .message (Prod.ext (Answer.reply.inj replied) rfl)⟩
  | command e =>
      obtain ⟨_, _, executed, ⟨⟩, rfl⟩ := execute_of_perform h
      obtain ⟨_, asked⟩ | ⟨_, _, asked⟩ := Site.execute_failed executed
      · exact ⟨rfl, .checkpoint asked⟩
      · exact ⟨rfl, .migration asked⟩
  | run e =>
      obtain ⟨answered, rfl⟩ := Prod.mk.inj (Option.some.inj h)
      exact ⟨rfl, .run (Prod.ext (Answer.outcome.inj answered) rfl)⟩

end LiveMigration.Node
