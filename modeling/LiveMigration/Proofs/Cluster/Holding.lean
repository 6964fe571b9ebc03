import LiveMigration.Proofs.Cluster.Basic

/-!
Who holds a container. A node does if the process lives there or if the node may still come to
start it by itself. What a node does on its own gives it no container that it did not hold,
and posting a handoff gives the container up. A node that is idle has not launched anything yet,
and one that is idle no more never is again.
-/

namespace LiveMigration

/-- The statuses in which a node runs its container or is about to restore it. -/
def Status.engages : Status → Bool
  | .running | .recovery | .restoring => true
  | _ => false

theorem Status.cases_of_engages {s : Status} (h : s.engages = true) :
    s = .running ∨ s = .recovery ∨ s = .restoring := by
  revert s
  decide

theorem Status.not_engages_of_eases {s s' : Status} (h : s.eases s' = true) :
    s'.engages = false := by
  revert s s'
  decide

theorem Status.not_engages_of_drifts {s : Status} (h : Status.migrating.drifts s = true) :
    s.engages = false := by
  cases s <;> first | rfl | cases h

theorem Status.isIdle_of_moves {s s' : Status} (h : s.moves s' = true) (idle : s'.isIdle = true) :
    s.isIdle = true := by
  revert s s'
  decide

theorem Status.eq_running_of_eases {s : Status} (h : s.eases .migrating = true) :
    s = .running := by
  cases s <;> first | rfl | cases h

namespace Node

variable {σ : Type} {settings : Settings} {rig : Rig σ}

/-- A node has the container or may come to start it by itself. -/
inductive Holds (w : Working σ) : Prop
  | alive (h : w.isAlive = true)
  | engaged (h : w.status.engages = true)
  | dumping (status : w.status = .migrating) (early : w.activity.hasDumped = false)
  | entering (e : Status) (h : w.activity = .entering e) (he : e = .migrating ∨ e = .restoring)

theorem not_holds_of_stake? {w : Working σ} (h : w.stake? = none) : ¬ Holds w := by
  unfold Working.stake? at h
  split at h
  · cases h
  rename_i notRunning
  split at h
  · cases h
  rename_i notDumping
  split at h
  · cases h
  rename_i notRestoring
  split at h
  · cases h
  rename_i dead
  intro held
  cases held with
  | alive alive => exact dead alive
  | engaged engaged =>
      obtain running | recovery | restoring := Status.cases_of_engages engaged
      · exact notRunning running
      · exact notRestoring (.inl recovery)
      · exact notRestoring (.inr (.inl restoring))
  | dumping status early => exact notDumping (.inl ⟨status, early⟩)
  | entering e entering he =>
      obtain rfl | rfl := he
      · exact notDumping (.inr (by rw [entering]; rfl))
      · exact notRestoring (.inr (.inr (by rw [entering]; rfl)))

/-! ## Processes -/

theorem isUp_append (deeds more : List Deed) :
    isUp (deeds ++ more) = more.foldl Deed.leavesUp (isUp deeds) :=
  List.foldl_append

theorem Quiet.isUp {a b : List Deed} (h : Quiet a b) (up : isUp b = true) : isUp a = true := by
  obtain ⟨more, rfl, quiet⟩ := h
  rw [isUp_append] at up
  cases ha : Node.isUp a with
  | true => rfl
  | false =>
      rw [ha] at up
      clear ha
      induction more with
      | nil => exact up
      | cons d more ih =>
          have down : Deed.leavesUp false d = false := by
            cases d with
            | launched l => exact absurd (List.mem_cons_self ..) (quiet l)
            | sent => rfl
            | called c done => cases c <;> cases done <;> rfl
          rw [List.foldl_cons, down] at up
          exact ih (fun l mem => quiet l (List.mem_cons_of_mem _ mem)) up

theorem FinalDumps.stopped {id : ContainerId} {pre : Plan} {full : Dump}
    {s s' : Site (Recorded σ)} (final : FinalDumps settings rig.recorded id pre full s s') :
    isUp s'.env.deeds = false := by
  obtain ⟨between, _, second⟩ := final.steps
  rw [second.deeds_eq, isUp_append, dumpCall]
  dsimp only
  rw [(Dump.nextFull?_eq_some final.follows).1]
  exact Bool.and_false _

theorem lasting_quiet (deeds : List Deed) :
    Lasting settings rig.recorded fun s => Quiet deeds s.env.deeds :=
  ⟨fun done quiet => quiet.trans done.quiet, fun takes quiet => quiet.trans takes.quiet⟩

theorem FallsShort.quiet {s s' : Site (Recorded σ)}
    (short : FallsShort settings rig.recorded s s') : Quiet s.env.deeds s'.env.deeds :=
  (lasting_quiet _).fallsShort short (.refl _)

theorem HandsOver.quiet {t : Target} {m : Rpc.Migrate} {s s' : Site (Recorded σ)}
    (h : HandsOver settings rig.recorded t m s s') :
    Quiet s.env.deeds s'.env.deeds ∧ isUp s'.env.deeds = false := by
  obtain ⟨id, bundle, pre, full, taken, final, completed, _⟩ := h.steps
  have done : Chores settings rig.recorded _ _ := chores_completeTarget taken t
  rw [completed] at done
  refine ⟨(lasting_quiet _).handsOver h (.refl _), ?_⟩
  refine Bool.eq_false_iff.2 fun up => ?_
  have down := final.stopped
  rw [done.quiet.isUp up] at down
  cases down

/-! ## What a node does with the container -/

theorem processes_leave (e n : Status) (s : Site σ) :
    (s.leave e n).node.processes = s.node.processes := by
  unfold Site.leave
  split <;> rfl

theorem isAlive_of {w w' : Working σ} (quiet : Quiet w.deeds w'.deeds)
    (processes : w'.site.node.processes.Sublist w.site.node.processes) (alive : w'.isAlive = true) :
    w.isAlive = true := by
  obtain ⟨some, up⟩ := Bool.and_eq_true_iff.1 alive
  refine Bool.and_eq_true_iff.2 ⟨?_, quiet.isUp up⟩
  cases hp : w.site.node.processes with
  | nil =>
      rw [hp, List.sublist_nil] at processes
      rw [processes] at some
      cases some
  | cons => rfl

theorem Holds.of_status {w : Working σ} {s : Status} (status : w.status = s)
    (h : s.engages = true) : Holds w :=
  .engaged (status ▸ h)

/-- A step that only goes on with what the node has begun. -/
theorem Holds.of_same {w w' : Working σ} (held : Holds w') (quiet : Quiet w.deeds w'.deeds)
    (processes : w'.site.node.processes.Sublist w.site.node.processes)
    (status : w'.status = w.status ∨ w.status.eases w'.status = true)
    (dumped : w.activity.hasDumped = true → w'.activity.hasDumped = true)
    (entered : ∀ e, w'.activity = .entering e → w.activity = .entering e) : Holds w := by
  cases held with
  | alive h => exact .alive (isAlive_of quiet processes h)
  | engaged h =>
      obtain same | eases := status
      · exact .engaged (same ▸ h)
      · rw [Status.not_engages_of_eases eases] at h
        cases h
  | dumping now early =>
      obtain same | eases := status
      · refine .dumping (same ▸ now) (Bool.eq_false_iff.2 fun h => ?_)
        rw [dumped h] at early
        cases early
      · rw [now] at eases
        exact .engaged (Status.eq_running_of_eases eases ▸ rfl)
  | entering e h he => exact .entering e (entered e h) he

theorem engages_of_mayEnd {e n : Status} (h : mayEnd e n = true)
    (later : n.engages = true ∨ n = .migrating) : e.engages = true := by
  revert e n
  decide

theorem Holds.of_leave {e n : Status} {s : Site (Recorded σ)}
    (held : Holds ⟨.deciding, s.leave e n⟩) (ends : mayEnd e n = true) :
    Holds ⟨.leaving e n, s⟩ := by
  have alive (h : (Working.mk .deciding (s.leave e n)).isAlive = true) :
      Holds ⟨.leaving e n, s⟩ := by
    refine .alive (isAlive_of ?_ ?_ h)
    · exact .of_eq (congrArg Recorded.deeds (env_leave e n s))
    · exact processes_leave e n s ▸ List.Sublist.refl _
  by_cases now : s.register.status = e
  · have status : (Working.mk .deciding (s.leave e n)).status = n :=
      status_leave now (allowed_of_mayEnd ends)
    have engages (later : n.engages = true ∨ n = .migrating) :
        Holds ⟨.leaving e n, s⟩ :=
      .of_status now (engages_of_mayEnd ends later)
    cases held with
    | alive h => exact alive h
    | engaged h => exact engages (.inl (status ▸ h))
    | dumping h => exact engages (.inr (status.symm.trans h))
    | entering _ h => cases h
  · have same := leave_of_ne (n := n) now
    rw [same] at held
    cases held with
    | alive h => exact .alive h
    | engaged h => exact .engaged h
    | dumping h _ =>
        refine .dumping h ?_
        cases e <;> first | rfl | exact absurd h now
    | entering _ h => cases h

theorem Activity.Goes.hasDumped {a a' : Activity} (h : a.Goes a') (dumped : a.hasDumped = true) :
    a'.hasDumped = true := by
  cases h <;> first | rfl | exact dumped

theorem Activity.Goes.entered {a a' : Activity} (h : a.Goes a') {e : Status}
    (ha : a' = .entering e) : a = .entering e := by
  subst ha
  cases h
  rfl

theorem Holds.of_proceed {w w' : Working σ} (c : Coherent w) (held : Holds w')
    (p : Proceeds settings rig.recorded w.activity w.site w'.activity w'.site) : Holds w := by
  obtain ⟨a, s⟩ := w
  obtain ⟨a', s'⟩ := w'
  dsimp only at p
  cases p with
  | look =>
      cases held with
      | alive h => exact .alive h
      | engaged h => exact .engaged h
      | dumping h => exact .dumping h rfl
      | entering e h he =>
          have status : s.register.status = e := Activity.entering.inj h
          obtain rfl | rfl := he
          · exact .dumping status rfl
          · exact .of_status status rfl
  | chores goes done =>
      refine held.of_same done.quiet (done.kept.processes ▸ List.Sublist.refl _)
        (.inl done.kept.status) goes.hasDumped fun _ => goes.entered
  | handsOver => exact .entering .migrating rfl (.inl rfl)
  | fallsShort => exact .entering .migrating rfl (.inl rfl)
  | restores => exact .entering .restoring rfl (.inr rfl)
  | adopts => exact held.of_same (.refl _) (.refl _) (.inl rfl) id nofun
  | leaves e n => exact held.of_leave (c.ends e n rfl)

/-- What a node does by itself, other than to take its source for lost, gives it no container that
it did not hold. -/
theorem Holds.of_own {w w' : Working σ} {e : Event} {a : Answer} (c : Coherent w)
    (held : Holds w') (own : e.isOwn = true) (ignored : e = .silence → ¬ w.Watches)
    (h : e.perform settings rig w = some (a, w')) : Holds w := by
  cases perform_cases h with
  | chores _ done =>
      exact held.of_same done.quiet (done.kept.processes ▸ List.Sublist.refl _)
        (.inl done.kept.status) id fun _ => id
  | ticks ticks => exact .of_status ticks.running rfl
  | eases _ eases =>
      have deeds := congrArg Recorded.deeds eases.env
      exact held.of_same (.of_eq deeds) eases.processes eases.status id fun _ => id
  | runs => cases own
  | received => exact held.of_same (.refl _) (.refl _) (.inl rfl) id fun _ => id
  | accepts => cases own
  | silence =>
      obtain same | ⟨watching, silent⟩ := onSilence_cases w.activity w.site
      · rw [same] at held
        exact held
      · rw [silent, leave_of_ne fun status => ignored rfl ⟨watching, status⟩] at held
        refine held.of_same (.refl _) (.refl _) (.inl rfl) ?_ nofun
        rw [watching]
        exact nofun
  | proceeds p => exact held.of_proceed c p

/-- Only the loop restores a container. -/
theorem quiet_or_entering {w w' : Working σ} {e : Event} {a : Answer}
    (h : e.perform settings rig w = some (a, w')) (other : ∀ id bundle, e ≠ .run id bundle) :
    Quiet w.deeds w'.deeds ∨ e = .proceed ∧ w.activity = .entering .restoring := by
  cases perform_cases h with
  | chores _ done => exact .inl done.quiet
  | ticks ticks => exact .inl ticks.quiet
  | eases _ eases => exact .inl (.of_eq (congrArg Recorded.deeds eases.env))
  | runs id bundle => exact absurd rfl (other id bundle)
  | received | accepts => exact .inl (.refl _)
  | silence =>
      obtain same | ⟨_, silent⟩ := onSilence_cases w.activity w.site
      · rw [same]
        exact .inl (.refl _)
      · rw [silent]
        exact .inl (.of_eq (congrArg Recorded.deeds (env_leave _ _ w.site)))
  | proceeds p =>
      obtain ⟨activity, site⟩ := w
      dsimp only at p
      cases p with
      | look | adopts => exact .inl (.refl _)
      | chores _ done => exact .inl done.quiet
      | handsOver hands => exact .inl hands.quiet.1
      | fallsShort short => exact .inl short.quiet
      | restores => exact .inr ⟨rfl, rfl⟩
      | leaves e n => exact .inl (.of_eq (congrArg Recorded.deeds (env_leave e n site)))

theorem Quiet.not_restores {w w' : Working σ} (h : Quiet w.deeds w'.deeds) :
    ¬ Restores w w' := by
  rintro ⟨more, id, image, bundle, grown, mem⟩
  obtain ⟨rest, grown', quiet⟩ := h
  rw [List.append_cancel_left (grown.symm.trans grown')] at mem
  exact quiet _ mem

theorem Holds.of_restores {w w' : Working σ} {e : Event} {a : Answer}
    (h : e.perform settings rig w = some (a, w')) (other : ∀ id bundle, e ≠ .run id bundle)
    (restores : Restores w w') : Holds w := by
  obtain quiet | ⟨_, entering⟩ := quiet_or_entering h other
  · exact absurd restores quiet.not_restores
  · exact .entering .restoring entering (.inr rfl)

theorem HandsOver.not_holds {t : Target} {m : Rpc.Migrate} {w w' : Working σ} (c : Coherent w)
    (entering : w.activity = .entering .migrating) (handing : w'.activity = .handingOver t m)
    (hands : HandsOver settings rig.recorded t m w.site w'.site) : ¬ Holds w' := by
  have drifts : Status.migrating.drifts w'.status = true := by
    rw [Working.status, hands.status_eq]
    exact c.drifts (by rw [entering]; rfl)
  intro held
  cases held with
  | alive h =>
      have up := (Bool.and_eq_true_iff.1 h).2
      rw [hands.quiet.2] at up
      cases up
  | engaged h =>
      rw [Status.not_engages_of_drifts drifts] at h
      cases h
  | dumping _ early =>
      rw [handing] at early
      cases early
  | entering e h =>
      rw [handing] at h
      cases h

/-- When a node posts a handoff it gives the container up. -/
theorem posted_cases {w w' : Working σ} {e : Event} {a : Answer} (c : Coherent w)
    (h : e.perform settings rig w = some (a, w')) :
    posted w w' = [] ∨ (∃ p, posted w w' = [p]) ∧ w.activity = .entering .migrating ∧
      ¬ Holds w' := by
  unfold posted
  split
  · rename_i t m entering handing
    refine .inr ⟨⟨(t, m), rfl⟩, entering, ?_⟩
    have changed : w'.activity ≠ w.activity := by
      rw [entering, handing]
      exact nofun
    cases perform_cases h with
    | chores | ticks | eases | runs | received | accepts => exact absurd rfl changed
    | silence =>
        obtain same | ⟨_, silent⟩ := onSilence_cases w.activity w.site
        · rw [same] at changed
          exact absurd rfl changed
        · rw [silent] at handing
          cases handing
    | proceeds p =>
        dsimp only at handing
        rw [entering, handing] at p
        cases p with
        | chores goes => cases goes
        | handsOver hands => exact hands.not_holds c entering handing
  · exact .inl rfl

/-! ## Idle nodes -/

theorem isIdle_of_mayEnd {e n : Status} (h : mayEnd e n = true) (idle : n.isIdle = true) :
    e.isIdle = true := by
  revert e n
  decide

theorem isIdle_of_leave {e n : Status} {s : Site σ} (allowed : e ≠ .failed ∧ e.canChange n = true)
    (given : n.isIdle = true → e.isIdle = true)
    (idle : (s.leave e n).register.status.isIdle = true) : s.register.status.isIdle = true := by
  by_cases status : s.register.status = e
  · rw [status_leave status allowed] at idle
    rw [status]
    exact given idle
  · rwa [leave_of_ne status] at idle

/-- Once a node is not idle any more it never is again. -/
theorem isIdle_of_perform {w w' : Working σ} {e : Event} {a : Answer} (c : Coherent w)
    (h : e.perform settings rig w = some (a, w')) (idle : w'.status.isIdle = true) :
    w.status.isIdle = true := by
  have shifted {s : Site (Recorded σ)} (shifts : Shifts rig.recorded w.site s)
      (idle : s.register.status.isIdle = true) : w.status.isIdle = true := by
    obtain same | moved := shifts.status
    · rwa [same] at idle
    · exact Status.isIdle_of_moves moved idle
  cases perform_cases h with
  | chores _ done => rwa [Working.status, done.kept.status] at idle
  | ticks ticks => rwa [Working.status, ticks.status_eq] at idle
  | eases _ eases => exact shifted eases.shifts idle
  | runs id bundle => exact shifted (shifts_run id bundle w.site) idle
  | received => exact idle
  | accepts => cases idle
  | silence =>
      obtain same | ⟨_, silent⟩ := onSilence_cases w.activity w.site
      · rwa [same] at idle
      · rw [silent] at idle
        exact isIdle_of_leave (e := .standBy) (n := .recovery) (by decide) (by decide) idle
  | proceeds p =>
      obtain ⟨activity, site⟩ := w
      dsimp only at p
      cases p with
      | look | restores | adopts => exact idle
      | chores _ done => rwa [Working.status, done.kept.status] at idle
      | handsOver hands => rwa [Working.status, hands.status_eq] at idle
      | fallsShort short => rwa [Working.status, short.status_eq] at idle
      | leaves e n =>
          have ends := c.ends e n rfl
          exact isIdle_of_leave (allowed_of_mayEnd ends) (isIdle_of_mayEnd ends) idle

theorem Coherent.not_isIdle {w : Working σ} (c : Coherent w) {e : Status}
    (h : w.activity.known? = some e) (he : e = .migrating ∨ e = .restoring ∨ e = .recovery) :
    w.status.isIdle = false := by
  have other := c.not_blank h he
  cases status : w.status with
  | standBy => exact absurd (.inl status) other
  | joining => exact absurd (.inr status) other
  | _ => rfl

/-- A node that is idle has not launched anything yet. -/
def Unused (w : Working σ) : Prop := w.status.isIdle = true → isUp w.deeds = false

theorem Unused.step {w w' : Working σ} {e : Event} {a : Answer} (unused : Unused w)
    (c : Coherent w) (h : e.perform settings rig w = some (a, w'))
    (other : ∀ id bundle, e ≠ .run id bundle) : Unused w' := by
  intro idle
  have before := isIdle_of_perform c h idle
  obtain quiet | ⟨_, entering⟩ := quiet_or_entering h other
  · refine Bool.eq_false_iff.2 fun up => ?_
    have launched := quiet.isUp up
    rw [unused before] at launched
    cases launched
  · rw [c.not_isIdle (by rw [entering]; rfl) (.inr (.inl rfl))] at before
    cases before

end Node

end LiveMigration
