import LiveMigration.Proofs.Node.CadenceSchedule

/-!
Containers that end by themselves. A node with a process whose end nobody has dealt with runs
its container, is done with it, or is about to say that it restored it. In this last case the
supervisor passes over the end; at any other time it keeps the node from ever running again.
-/

namespace LiveMigration

/-- The statuses from which a node never runs its container again. -/
def Status.isSpent : Status → Bool
  | .migrating | .stopped | .failed | .terminated => true
  | _ => false

namespace Node

variable {σ : Type} {settings : Settings} {rig : Rig σ} {w w' : Working σ} {e : Event}
  {a : Answer}

/-! ## What an event does to the status -/

/-- The changes of a status that an event may make: by others, at the end of a handler, or when
the source has fallen silent. -/
def mayTurn (s s' : Status) : Bool :=
  s' == s || s.moves s' || mayEnd s s' || (s == .standBy && s' == .recovery)

theorem mayTurn_of_eq {s s' : Status} (h : s' = s) : mayTurn s s' = true := by
  simp [mayTurn, h]

theorem Shifts.mayTurn {s s' : Site σ} (shifts : Shifts rig s s') :
    mayTurn s.register.status s'.register.status = true := by
  obtain same | moved := shifts.status
  · exact mayTurn_of_eq same
  · simp [Node.mayTurn, moved]

theorem Coherent.mayTurn (c : Coherent w) (h : e.perform settings rig w = some (a, w')) :
    mayTurn w.status w'.status = true := by
  cases perform_cases h with
  | chores _ done => exact mayTurn_of_eq done.kept.status
  | ticks ticks => exact mayTurn_of_eq ticks.status_eq
  | eases _ eases =>
      have shifts : Shifts rig.recorded _ _ := eases.shifts
      exact shifts.mayTurn
  | runs id bundle => exact (shifts_run id bundle w.site).mayTurn
  | received => exact mayTurn_of_eq rfl
  | accepts status =>
      rw [status]
      rfl
  | silence =>
      obtain same | ⟨_, silent⟩ := onSilence_cases w.activity w.site
      · rw [same]
        exact mayTurn_of_eq rfl
      · rw [silent]
        by_cases status : w.site.register.status = .standBy
        · rw [Working.status, Working.status, status_leave status (by decide), status]
          rfl
        · rw [leave_of_ne status]
          exact mayTurn_of_eq rfl
  | proceeds p =>
      obtain ⟨activity, site⟩ := w
      dsimp only at p
      cases p with
      | look | restores | adopts => exact mayTurn_of_eq rfl
      | chores _ done => exact mayTurn_of_eq done.kept.status
      | handsOver hands => exact mayTurn_of_eq hands.status_eq
      | fallsShort short => exact mayTurn_of_eq short.status_eq
      | leaves entered next =>
          have ends := c.ends entered next rfl
          by_cases status : site.register.status = entered
          · rw [Working.status, Working.status, status_leave status (allowed_of_mayEnd ends),
              status]
            simp [Node.mayTurn, ends]
          · rw [leave_of_ne status]
            exact mayTurn_of_eq rfl

theorem isSpent_of_mayTurn {s s' : Status} (h : mayTurn s s' = true) (spent : s.isSpent = true) :
    s'.isSpent = true := by
  revert s s'
  decide

theorem isLate_of_mayTurn {s s' : Status} (h : mayTurn s s' = true) (late : s.isLate = true) :
    s'.isLate = true := by
  revert s s'
  decide

/-- A restore ends in a status that a node has when its container runs or ran. -/
theorem isLate_of_mayTurn_restoring {s : Status} (h : mayTurn .restoring s = true)
    (other : s ≠ .restoring) : s.isLate = true := by
  revert s
  decide

/-! ## Processes that nobody has dealt with -/

theorem Kept.pending {s s' : Site σ} (h : Kept s s') : s'.pending = s.pending := by
  rw [Site.pending, h.processes, h.endings]
  rfl

theorem Takes.pending {id : ContainerId} {plan : Plan} {leaveRunning : Bool} {s s' : Site σ}
    (h : Takes settings rig id plan leaveRunning s s') : s'.pending = s.pending := by
  rw [Site.pending, h.node_eq]
  rfl

theorem lasting_pending (ls : List Engine.Launch) :
    Lasting settings rig fun s => s.pending = ls :=
  ⟨fun done same => done.kept.pending.trans same, fun takes same => takes.pending.trans same⟩

theorem Ticks.pending {plan : Plan} {s s' : Site σ} (h : Ticks settings rig plan s s') :
    s'.pending = s.pending := by
  obtain ⟨_, _, synced, _, takes, chores, rfl⟩ := h.steps
  have closes : (closeBehind plan.dump synced).pending = synced.pending := by
    unfold closeBehind
    split <;> rfl
  rw [closes, chores.kept.pending, takes.pending]

theorem pending_leave (entered next : Status) (s : Site σ) :
    (s.leave entered next).pending = s.pending := by
  unfold Site.leave
  split <;> rfl

theorem pending_changeStatus (s : Site σ) (target : Status) :
    (s.changeStatus target).2.pending = s.pending := by
  unfold Site.changeStatus
  split <;> rfl

theorem pending_run (id : ContainerId) (bundle : Path) (s : Site σ) :
    (s.run rig id bundle).2.pending = s.pending ∨
      (s.run rig id bundle).2.register.status = .running := by
  cases ran : (s.run rig id bundle).1 with
  | ok => exact .inr (status_run ran)
  | error e =>
      left
      have same := pending_changeStatus s .running
      unfold Site.run at ran ⊢
      split at ran <;> rename_i changed
      · rw [changed] at same
        exact same
      · cases ran

/-- Nothing but a run or a restore launches a process. -/
theorem pending_of_perform (h : e.perform settings rig w = some (a, w')) :
    w'.site.pending ⊆ w.site.pending ∨ w'.status = .running ∨
      w.activity = .entering .restoring ∧ w'.activity = .leaving .restoring .running ∧
        w'.status = w.status := by
  have keeps {s s' : Site (Recorded σ)} (same : s'.pending = s.pending) :
      s'.pending ⊆ s.pending := same ▸ List.Subset.refl _
  cases perform_cases h with
  | chores _ done => exact .inl (keeps done.kept.pending)
  | ticks ticks => exact .inl (keeps ticks.pending)
  | eases _ eases => exact .inl eases.pending
  | runs id bundle =>
      obtain same | running := pending_run id bundle w.site
      · exact .inl (keeps same)
      · exact .inr (.inl running)
  | received | accepts => exact .inl (keeps rfl)
  | silence =>
      obtain same | ⟨_, silent⟩ := onSilence_cases w.activity w.site
      · rw [same]
        exact .inl (keeps rfl)
      · rw [silent]
        exact .inl (keeps (pending_leave .standBy .recovery w.site))
  | proceeds p =>
      obtain ⟨activity, site⟩ := w
      dsimp only at p
      cases p with
      | look | adopts => exact .inl (keeps rfl)
      | chores _ done => exact .inl (keeps done.kept.pending)
      | handsOver hands => exact .inl (keeps ((lasting_pending _).handsOver hands rfl))
      | fallsShort short => exact .inl (keeps ((lasting_pending _).fallsShort short rfl))
      | restores => exact .inr (.inr ⟨rfl, rfl, rfl⟩)
      | leaves entered next => exact .inl (keeps (pending_leave entered next site))

/-! ## Who waits for an end -/

/-- While somebody's end is still to be dealt with, the node runs its container or is done with
it, or the restore that launched it has not yet said so. -/
def Attended (w : Working σ) : Prop :=
  w.site.pending ≠ [] → w.status.isLate = true ∨
    w.status = .restoring ∧ w.activity = .leaving .restoring .running

/-- A loop that is done with a restore says so in its very next step. -/
theorem activity_of_restoring (h : e.perform settings rig w = some (a, w'))
    (leaving : w.activity = .leaving .restoring .running) (before : w.status = .restoring)
    (after : w'.status = .restoring) : w'.activity = .leaving .restoring .running := by
  cases perform_cases h with
  | chores | ticks | eases | runs | received | accepts => exact leaving
  | silence =>
      obtain same | ⟨watching, _⟩ := onSilence_cases w.activity w.site
      · rw [same]
        exact leaving
      · rw [leaving] at watching
        cases watching
  | proceeds p =>
      rw [leaving] at p
      cases p with
      | chores goes _ =>
          cases goes
          rfl
      | leaves =>
          rw [Working.status, status_leave before (allowed_of_mayEnd rfl)] at after
          cases after

theorem Attended.step (attended : Attended w) (c : Coherent w)
    (h : e.perform settings rig w = some (a, w')) : Attended w' := by
  intro waits
  have turn := c.mayTurn h
  obtain fewer | running | ⟨entering, leaving, same⟩ := pending_of_perform h
  · have waited : w.site.pending ≠ [] := fun none =>
      waits (List.subset_nil.1 (none ▸ fewer))
    obtain late | ⟨restoring, leaving⟩ := attended waited
    · exact .inl (isLate_of_mayTurn turn late)
    · rw [restoring] at turn
      by_cases other : w'.status = .restoring
      · exact .inr ⟨other, activity_of_restoring h leaving restoring other⟩
      · exact .inl (isLate_of_mayTurn_restoring turn other)
  · rw [running]
    exact .inl rfl
  · have drifts := c.drifts (e := .restoring) (by rw [entering]; rfl)
    rw [same]
    obtain restoring | late := Bool.or_eq_true_iff.1 drifts
    · exact .inr ⟨by simpa using restoring, leaving⟩
    · exact .inl late

theorem Reached.attended (h : Reached settings rig w) : Attended w := by
  obtain ⟨disk, env, ms, course⟩ := h
  have both : Coherent w ∧ Attended w := by
    refine course.preserves (P := fun w => Coherent w ∧ Attended w) ?_ ?_
    · exact ⟨.started disk env, fun waits => absurd rfl waits⟩
    · exact fun ⟨c, attended⟩ h => ⟨c.step h, attended.step c h⟩
  exact both.2

/-! ## The supervisor -/

theorem Ending.canChange_next {ending : Ending} {next : Status} (h : ending.next? = some next) :
    Status.running.canChange next = true := by
  unfold Ending.next? at h
  split at h <;> cases h <;> rfl

theorem Ending.isSpent_next {ending : Ending}
    (dead : (∃ code, ending.result = .ok (.exited code)) ∨ ∃ f, ending.result = .error f) :
    (ending.next?.getD .running).isSpent = true := by
  unfold Ending.next?
  obtain ⟨code, exited⟩ | ⟨f, broken⟩ := dead
  · rw [exited]
    rfl
  · rw [broken]
    rfl

/-- An end of a process changes the status of a running node and of no other one. -/
theorem status_recordEnding (ending : Ending) (r : Register) :
    (Site.recordEnding ending r).status =
      if r.status = .running then ending.next?.getD .running else r.status := by
  unfold Site.recordEnding
  dsimp only
  generalize noted : (if r.container = some ending.launch.container then
    { r with live := false } else r) = r'
  have same : r'.status = r.status := by
    subst noted
    split <;> rfl
  rw [← same]
  cases h : ending.next? with
  | none =>
      by_cases running : r'.status = .running <;> simp [running]
  | some next =>
      by_cases running : r'.status = .running
      · have check : Status.running.check next = .ok () :=
          Status.check_eq_ok_iff.2 ⟨nofun, Ending.canChange_next h⟩
        simp only [running, if_true, Register.changeStatus, check]
        rfl
      · simp only [if_neg running]

theorem status_supervise {s : Site σ} {ending : Ending} {rest : List Ending}
    (endings : s.node.endings = ending :: rest) :
    s.supervise.register.status =
      if s.register.status = .running then ending.next?.getD .running
      else s.register.status := by
  unfold Site.supervise
  rw [endings]
  exact status_recordEnding ending s.register

theorem site_of_supervise (h : Event.supervise.perform settings rig w = some (a, w')) :
    w' = { w with site := w.site.supervise } := by
  have performed : some (Answer.nothing, { w with site := w.site.supervise }) = some (a, w') := h
  cases performed
  rfl

theorem isSpent_of_isLate {s : Status} (late : s.isLate = true) (other : s ≠ .running) :
    s.isSpent = true := by
  revert s
  decide

/-- The status stays spent for good. -/
theorem Course.isSpent {ms : List (Moment σ)} (course : Course settings rig w ms w')
    (c : Coherent w) (spent : w.status.isSpent = true) : w'.status.isSpent = true := by
  have both : Coherent w' ∧ w'.status.isSpent = true :=
    course.preserves (P := fun w => Coherent w ∧ w.status.isSpent = true) ⟨c, spent⟩
      fun ⟨c, spent⟩ h => ⟨c.step h, isSpent_of_mayTurn (c.mayTurn h) spent⟩
  exact both.2

/-- However the steps of the loop, the operator, other nodes and the processes interleave: when
the supervisor has dealt with a process that exited or failed, the node never runs again,
whatever happens afterwards. The one time when the supervisor passes over such a process is
while a restore that has launched it is still to say that the node runs. -/
theorem exit_ends_running {ms : List (Moment σ)} {w₁ : Working σ} {ending : Ending}
    {rest : List Ending} (reached : Reached settings rig w)
    (endings : w.site.node.endings = ending :: rest)
    (dead : (∃ code, ending.result = .ok (.exited code)) ∨ ∃ f, ending.result = .error f)
    (supervised : Event.supervise.perform settings rig w = some (a, w₁))
    (told : w.status ≠ .restoring) (course : Course settings rig w₁ ms w') :
    w'.status ≠ .running := by
  have waits : w.site.pending ≠ [] := by
    simp [Site.pending, endings]
  have late : w.status.isLate = true := by
    obtain late | ⟨restoring, _⟩ := reached.attended waits
    · exact late
    · exact absurd restoring told
  have spent : w₁.status.isSpent = true := by
    rw [site_of_supervise supervised, Working.status, status_supervise endings]
    split
    · exact Ending.isSpent_next dead
    · exact isSpent_of_isLate late ‹_›
  have stays := course.isSpent (reached.coherent.step supervised) spent
  intro running
  rw [running] at stays
  cases stays

/-- When the supervisor deals with an end while the node still restores, the node runs one step of
its loop later. -/
theorem running_of_overtaken {w₁ w₂ : Working σ} {a₁ a₂ : Answer}
    (reached : Reached settings rig w) (waits : w.site.node.endings ≠ [])
    (restoring : w.status = .restoring)
    (supervised : Event.supervise.perform settings rig w = some (a₁, w₁))
    (proceeds : Event.proceed.perform settings rig w₁ = some (a₂, w₂)) :
    w₂.status = .running := by
  obtain ⟨ending, rest, endings⟩ := List.exists_cons_of_ne_nil waits
  have leaving : w.activity = .leaving .restoring .running := by
    obtain late | ⟨_, leaving⟩ := reached.attended (by simp [Site.pending, endings])
    · rw [restoring] at late
      cases late
    · exact leaving
  have same : w.site.supervise.register.status = .restoring := by
    rw [Working.status] at restoring
    rw [status_supervise endings, restoring]
    rfl
  have left : some (Answer.nothing, ⟨.deciding, w.site.supervise.leave .restoring .running⟩) =
      some (a₂, w₂) := by
    rw [← proceeds, site_of_supervise supervised]
    unfold Event.perform
    dsimp only
    rw [leaving]
    rfl
  obtain ⟨_, rfl⟩ := Prod.mk.inj (Option.some.inj left)
  exact status_leave same (allowed_of_mayEnd rfl)

def sampleExit : Ending where
  launch := .restore sampleContainer (.ofText "/d1") (.ofText "/")
  result := .ok (.exited 1)

/-- The events of a node that restores a container, whose process exits before the node has said
that it runs. -/
def sampleLaunched : List Event :=
  [.message "h" (.migrate sampleHandoff), .proceed, .proceed,
    .processEnd sampleExit.launch sampleExit.result]

/-- The supervisor comes after the node has said that its restored container runs. -/
theorem exit_ends_running_sample :
    let w : Working Unit := sampleAfter (sampleLaunched ++ [.proceed])
    let w₁ : Working Unit := sampleAfter (sampleLaunched ++ [.proceed, .supervise])
    Reached .sample .sample w ∧ w.site.node.endings = [sampleExit] ∧
      Event.supervise.perform .sample .sample w = some (.nothing, w₁) ∧
      w.status = .running ∧ w₁.status ≠ .running := by
  intro w w₁
  have reached : Reached .sample .sample w := reached_sampleAfter _
  have endings : w.site.node.endings = [sampleExit] := rfl
  refine ⟨reached, endings, rfl, rfl, ?_⟩
  exact exit_ends_running reached endings (.inl ⟨1, rfl⟩) rfl nofun .start

/-- When the supervisor comes before the loop has said that the restored container runs, the
exit is lost: the node runs, and there is nothing that runs in it. -/
theorem exit_lost :
    ∃ w w₁ w₂ : Working Unit, Reached .sample .sample w ∧
      w.site.node.endings = [sampleExit] ∧
      Event.supervise.perform .sample .sample w = some (.nothing, w₁) ∧
      Event.proceed.perform .sample .sample w₁ = some (.nothing, w₂) ∧
      w₂.activity = .deciding ∧ w₂.status = .running ∧ w₂.site.pending = [] := by
  refine ⟨sampleAfter sampleLaunched, sampleAfter (sampleLaunched ++ [.supervise]),
    sampleAfter (sampleLaunched ++ [.supervise, .proceed]), reached_sampleAfter _, rfl, rfl, rfl,
    rfl, rfl, rfl⟩

end Node

end LiveMigration
