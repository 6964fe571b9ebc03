import LiveMigration.Proofs.Lineage.Recovered
import LiveMigration.Proofs.Node.HandlerRuns
import LiveMigration.Proofs.Node.Orders

/-!
What a node needs for what it does next. A handoff brings the container, the bundle and the dumps
along; a replica has learnt the bundle from its operator and the container from its source, and
its recovery finds the dumps on the disk. On both ways everything is there by the time when the
node is to restore its container, whatever comes in between.
-/

namespace LiveMigration

namespace Status

/-- The statuses in which nothing has to be there. -/
def isFree : Status → Bool
  | .standBy | .recovery | .restoring => false
  | _ => true

theorem isFree_of_eases {s s' : Status} (h : s.eases s' = true) : s'.isFree = true := by
  revert s s'
  decide

end Status

namespace Node

variable {σ : Type} {settings : Settings} {rig : Rig σ}

/-- What has to be there in a status, before its handler has begun. -/
def Site.Provides (s : Site σ) : Status → Prop
  | .standBy => s.register.source.isSome = true → s.register.container.isSome = true
  | .recovery => s.register.container.isSome = true ∧ s.register.bundle.isSome = true
  | .restoring => s.register.container.isSome = true ∧ s.register.bundle.isSome = true ∧
    s.register.chain.dumps ≠ []
  | _ => True

theorem Site.provides_of_isFree {e : Status} (free : e.isFree = true) (s : Site σ) :
    s.Provides e := by
  cases e <;> first | exact trivial | cases free

theorem Site.Provides.of_retains {e : Status} {s s' : Site σ} (h : s.Provides e)
    (retains : Retains s s')
    (dumps : e = .restoring → s.register.chain.dumps ≠ [] → s'.register.chain.dumps ≠ []) :
    s'.Provides e := by
  cases e with
  | standBy => exact fun follows => retains.container (h (retains.source follows))
  | recovery => exact ⟨retains.container h.1, retains.bundle h.2⟩
  | restoring => exact ⟨retains.container h.1, retains.bundle h.2.1, dumps rfl h.2.2⟩
  | stopped | running | migrating | joining | failed | terminated => exact trivial

/-- The statuses for which everything has to be there: the one that the node has and the one
that a transient handler acts on, until the container is restored, and the one that a handler
ends with. -/
inductive Working.Calls (w : Working σ) : Status → Prop
  | here (early : w.activity.handling? ≠ some .restoring) : Calls w w.status
  | known {e : Status} (early : w.activity.handling? ≠ some .restoring)
      (transient : e.isTransient = true) (h : w.activity.known? = some e) : Calls w e
  | next {e n : Status} (h : w.activity = .leaving e n) : Calls w n

/-- A node that lacks nothing. Whoever follows another node was given a bundle with it. -/
structure Provided (w : Working σ) : Prop extends Steady w where
  bundled : w.site.register.source.isSome = true → w.site.register.bundle.isSome = true
  provides : ∀ {e : Status}, w.Calls e → w.site.Provides e
  watching : w.activity = .standBy true → w.status = .standBy → w.site.Provides .recovery
  found : ∀ chain, w.activity = .recovered (.ok chain) → chain.dumps ≠ []

theorem Provided.started (disk : Disk) (env : σ) : Provided (.started disk env) := by
  refine ⟨.started disk env, nofun, ?_, nofun, nofun⟩
  intro e calls
  cases calls with
  | here => exact nofun
  | known _ _ h => cases h
  | next h => cases h

theorem isTransient_of_mayEnd {e n : Status} (h : mayEnd e n = true) : e.isTransient = true := by
  revert e n
  decide

theorem isFree_of_mayEnd {n : Status} (h : mayEnd .migrating n = true) : n.isFree = true := by
  revert n
  decide

/-- A loop that acts on a transient status is not at work beside a running container. -/
theorem Steady.not_running {w : Working σ} (h : Steady w) {e : Status}
    (known : w.activity.known? = some e) (transient : e.isTransient = true) :
    w.status ≠ .running := by
  obtain same | same := h.steady e known transient
  · rw [same]
    rintro rfl
    cases transient
  · rw [same]
    nofun

theorem Steady.calls_not_running {w : Working σ} (h : Steady w) {e : Status} (calls : w.Calls e)
    (restoring : e = .restoring) : w.status ≠ .running := by
  cases calls with
  | here =>
      rw [restoring]
      nofun
  | known _ transient known => exact h.not_running known transient
  | next leaving =>
      exact h.not_running (by rw [leaving]; rfl) (isTransient_of_mayEnd (h.ends _ _ leaving))

/-! ## Dumps to restore from -/

/-- A chain that was recovered has a dump, the one at which the search began. -/
theorem dumps_of_recover {disk : Disk} {chain : Chain}
    (h : Site.recover settings disk = .ok chain) : chain.dumps ≠ [] := by
  obtain ⟨d, _, latest⟩ := Site.latest?_of_recover h
  rw [Chain.latest?_eq] at latest
  intro none
  rw [none] at latest
  cases latest

/-! ## Requests and timers -/

/-- What others do to a node while its loop rests. -/
theorem Provided.of_same {w : Working σ} {s : Site (Recorded σ)} (p : Provided w)
    (steady : Steady { w with site := s }) (retains : Retains w.site s)
    (status : s.register.status = w.status ∨ s.register.status.isFree = true)
    (dumps : w.status ≠ .running → w.chain.dumps ≠ [] → s.register.chain.dumps ≠ []) :
    Provided { w with site := s } := by
  refine ⟨steady, fun follows => retains.bundle (p.bundled (retains.source follows)), ?_, ?_,
    p.found⟩
  · intro e calls
    have before : w.Calls e ∨ e.isFree = true := by
      cases calls with
      | here early =>
          refine status.imp ?_ id
          intro same
          rw [Working.status, same]
          exact .here early
      | known early transient h => exact .inl (.known early transient h)
      | next h => exact .inl (.next h)
    obtain calls | free := before
    · exact (p.provides calls).of_retains retains fun h =>
        dumps (p.toSteady.calls_not_running calls h)
    · exact Site.provides_of_isFree free s
  · intro watching standing
    obtain same | free := status
    · exact (p.watching watching (same.symm.trans standing)).of_retains retains (by simp)
    · rw [Working.status] at standing
      rw [standing] at free
      cases free

/-- While a node stands by, its loop is about to make no other status. -/
theorem Steady.calls_of_standBy {w : Working σ} (h : Steady w) (status : w.status = .standBy)
    {s : Site (Recorded σ)} {e : Status} (calls : Working.Calls { w with site := s } e) :
    e = s.register.status := by
  cases calls with
  | here => rfl
  | known _ transient known =>
      rw [h.of_standBy status known] at transient
      cases transient
  | @next e n leaving =>
      dsimp only at leaving
      have known : w.activity.known? = some e := by
        rw [leaving]
        rfl
      have transient := isTransient_of_mayEnd (h.ends _ _ leaving)
      rw [h.of_standBy status known] at transient
      cases transient

theorem join_of_standBy {s : Site σ} (status : s.register.status = .standBy) (source : String)
    (bundle : Path) : (s.join source bundle).2.register.status = .joining ∧
      (s.join source bundle).2.register.bundle = some bundle := by
  have check : s.register.status.check .joining = .ok () := by
    rw [status]
    rfl
  simp only [Site.join, Site.changeStatus, Register.changeStatus, Site.register_modify, check]
  exact ⟨rfl, rfl⟩

theorem Provided.joins {w : Working σ} (p : Provided w) (status : w.status = .standBy)
    (source : String) (bundle : Path)
    (steady : Steady { w with site := (w.site.join source bundle).2 }) :
    Provided { w with site := (w.site.join source bundle).2 } := by
  obtain ⟨joining, bundled⟩ := join_of_standBy status source bundle
  refine ⟨steady, fun _ => by rw [bundled]; rfl, ?_, ?_, p.found⟩
  · intro e calls
    rw [p.toSteady.calls_of_standBy status calls, joining]
    exact trivial
  · intro _ standing
    rw [Working.status, joining] at standing
    cases standing

theorem Provided.accepts {w : Working σ} (p : Provided w) (status : w.status = .standBy)
    (m : Rpc.Migrate) (steady : Steady { w with site := acceptedSite m w.site }) :
    Provided { w with site := acceptedSite m w.site } := by
  refine ⟨steady, nofun, ?_, nofun, p.found⟩
  intro e calls
  rw [p.toSteady.calls_of_standBy status calls]
  exact ⟨rfl, rfl, Chain.dumps_ofDumps_ne_nil m.nonempty⟩

/-- The loop leaves the status on which it has acted, unless the node has left it already. -/
theorem Provided.leave {a : Activity} {s : Site (Recorded σ)} {entered next : Status}
    (p : Provided ⟨a, s⟩) (steady : Steady ⟨.deciding, s.leave entered next⟩)
    (allowed : entered ≠ .failed ∧ entered.canChange next = true)
    (left : s.register.status = entered → s.Provides next)
    (stays : s.register.status ≠ entered → s.Provides s.register.status) :
    Provided ⟨.deciding, s.leave entered next⟩ := by
  have retains : Retains s (s.leave entered next) := .of_same (Site.holdings_leave _ _ s)
  refine ⟨steady, fun follows => retains.bundle (p.bundled (retains.source follows)), ?_, by simp,
    by simp⟩
  intro e calls
  cases calls with
  | here =>
      by_cases status : s.register.status = entered
      · have chain : (s.leave entered next).register.chain = s.register.chain := by
          rw [leave_of_eq status allowed]
          rfl
        rw [Working.status, status_leave status allowed]
        refine (left status).of_retains retains fun _ some => ?_
        rwa [chain]
      · rw [leave_of_ne status]
        exact stays status
  | known _ _ known => cases known
  | next leaving => cases leaving

theorem Provided.silence {w : Working σ} (p : Provided w)
    (steady : Steady ⟨(w.site.onSilence w.activity).1, (w.site.onSilence w.activity).2⟩) :
    Provided ⟨(w.site.onSilence w.activity).1, (w.site.onSilence w.activity).2⟩ := by
  obtain same | ⟨watching, silent⟩ := onSilence_cases w.activity w.site
  · rw [same]
    exact p
  · rw [silent] at steady ⊢
    have here : w.Calls w.status := .here (by rw [watching]; rintro ⟨⟩)
    exact p.leave steady ⟨by simp, rfl⟩ (p.watching watching) fun _ => p.provides here

/-! ## The loop -/

theorem follows_of_proceed {a : Activity} {s s' : Site σ}
    (h : s.proceed settings rig a = (some (.standBy true), s')) :
    a = .standBy true ∨ a = .entering .standBy ∧ s.register.source.isSome = true := by
  cases proceed_cases h with
  | chores goes _ =>
      cases goes with
      | wait => exact .inl rfl
      | stand =>
          have entered : some (Activity.standBy s.register.source.isSome) = some (.standBy true) :=
            congrArg Prod.fst h
          exact .inr ⟨rfl, Activity.standBy.inj (Option.some.inj entered)⟩

theorem container_of_proceed {a : Activity} {s s' : Site σ}
    (h : s.proceed settings rig a = (some (.leaving .joining .standBy), s')) :
    s'.register.container.isSome = true := by
  cases proceed_cases h with
  | chores goes _ =>
      cases goes with
      | wait => cases h
      | answered source m =>
          unfold Site.proceed at h
          dsimp only at h
          split at h
          · cases h
            rfl
          · cases answer : (s.askSource settings rig source m).1 with
            | ok id =>
                rw [answer] at h
                cases h
                rfl
            | error e =>
                rw [answer] at h
                cases h

theorem dumps_of_proceed {a : Activity} {s s' : Site σ} {chain : Chain}
    (h : s.proceed settings rig a = (some (.recovered (.ok chain)), s')) : chain.dumps ≠ [] := by
  cases proceed_cases h with
  | chores goes _ =>
      cases goes with
      | wait => cases h
      | found =>
          have recovered : some (Activity.recovered (Site.recover settings s.disk)) =
              some (.recovered (.ok chain)) := congrArg Prod.fst h
          exact dumps_of_recover (Activity.recovered.inj (Option.some.inj recovered))

theorem early_of_goes {a a' : Activity} {s s' : Site σ} (goes : a.Goes a')
    (h : s.proceed settings rig a = (some a', s')) (early : a'.handling? ≠ some .restoring) :
    a.handling? ≠ some .restoring := by
  intro handling
  obtain same | ⟨n, rfl, _⟩ := handling_of_proceed h handling rfl
  · exact early same
  · cases goes
    cases h

/-- What a handler ends with after chores only lacks nothing. -/
theorem provides_of_goes {a : Activity} {s s' : Site (Recorded σ)} {e n : Status}
    (h : s.proceed settings rig.recorded a = (some (.leaving e n), s'))
    (goes : a.Goes (.leaving e n)) : s'.Provides n := by
  cases goes with
  | wait => cases h
  | askNobody | restoreNothing | adoptNothing => exact trivial
  | terminate final | handed _ _ final =>
      exact Site.provides_of_isFree (by cases n <;> first | rfl | cases final) s'
  | answered source m next =>
      obtain rfl | rfl := next
      · exact fun _ => container_of_proceed h
      · exact trivial

theorem Provided.chores {a a' : Activity} {s s' : Site (Recorded σ)} (p : Provided ⟨a, s⟩)
    (h : s.proceed settings rig.recorded a = (some a', s')) (goes : a.Goes a')
    (done : Chores settings rig.recorded s s') (steady : Steady ⟨a', s'⟩) :
    Provided ⟨a', s'⟩ := by
  have retains := retains_proceed h
  have kept {e : Status} (calls : Working.Calls ⟨a, s⟩ e) : s'.Provides e := by
    refine (p.provides calls).of_retains retains fun _ some => ?_
    rwa [done.kept.chain]
  refine ⟨steady, fun follows => retains.bundle (p.bundled (retains.source follows)), ?_, ?_, ?_⟩
  · intro e calls
    cases calls with
    | here early =>
        rw [Working.status, done.kept.status]
        exact kept (.here (early_of_goes goes h early))
    | known early transient known =>
        obtain same | rfl := goes.known_eq
        · exact kept (.known (early_of_goes goes h early) transient (same.symm.trans known))
        · cases known
    | next leaving =>
        dsimp only at leaving
        subst leaving
        exact provides_of_goes h goes
  · intro watching standing
    dsimp only at watching
    subst watching
    rw [Working.status, done.kept.status] at standing
    obtain rfl | ⟨rfl, follows⟩ := follows_of_proceed h
    · exact (p.watching rfl standing).of_retains retains (by simp)
    · have here : s.Provides .standBy := by
        rw [← standing]
        exact p.provides (.here (by rintro ⟨⟩))
      exact ⟨retains.container (here follows), retains.bundle (p.bundled follows)⟩
  · rintro chain found
    dsimp only at found
    subst found
    exact dumps_of_proceed h

/-- Nothing has to be there for what a handoff ends with, whether it goes through or not. -/
theorem Steady.provides_of_migrating {w : Working σ} (h : Steady w)
    (known : w.activity.known? = some .migrating) {e : Status} (calls : w.Calls e) :
    w.site.Provides e := by
  refine Site.provides_of_isFree ?_ w.site
  cases calls with
  | here => obtain same | same := h.steady .migrating known rfl <;> rw [same] <;> rfl
  | known _ _ acting =>
      cases known.symm.trans acting
      rfl
  | next leaving =>
      have ends := h.ends _ _ leaving
      rw [leaving] at known
      cases known
      exact isFree_of_mayEnd ends

theorem Provided.adopts {s : Site (Recorded σ)} {chain : Chain}
    (p : Provided ⟨.recovered (.ok chain), s⟩) {s' : Site (Recorded σ)}
    (adopted : s'.register = { s.register with chain, closed := none, source := none })
    (steady : Steady ⟨.leaving .recovery .restoring, s'⟩) :
    Provided ⟨.leaving .recovery .restoring, s'⟩ := by
  obtain ⟨container, bundle⟩ : s.Provides .recovery := p.provides (.known (by rintro ⟨⟩) rfl rfl)
  have recovery : s'.Provides .recovery := by
    rw [Site.Provides, adopted]
    exact ⟨container, bundle⟩
  refine ⟨steady, fun follows => ?_, ?_, by simp, by simp⟩
  · rw [adopted] at follows
    cases follows
  intro e calls
  cases calls with
  | here =>
      obtain same | same := steady.steady .recovery rfl rfl
      · exact same ▸ recovery
      · exact same ▸ trivial
  | known _ _ known =>
      cases known
      exact recovery
  | next leaving =>
      cases leaving
      rw [Site.Provides, adopted]
      exact ⟨container, bundle, p.found chain rfl⟩

theorem Provided.leaves {s : Site (Recorded σ)} {entered next : Status}
    (p : Provided ⟨.leaving entered next, s⟩) (steady : Steady ⟨.deciding, s.leave entered next⟩) :
    Provided ⟨.deciding, s.leave entered next⟩ := by
  refine p.leave steady (allowed_of_mayEnd (p.ends _ _ rfl)) (fun _ => p.provides (.next rfl)) ?_
  intro status
  by_cases begun : entered = .restoring
  · subst begun
    have terminated : s.register.status = .terminated :=
      (p.steady .restoring rfl rfl).resolve_left status
    rw [terminated]
    exact trivial
  · exact p.provides (.here fun handling => begun (Option.some.inj handling))

theorem Provided.proceed {w : Working σ} {a : Activity} {s : Site (Recorded σ)} (p : Provided w)
    (h : w.site.proceed settings rig.recorded w.activity = (some a, s)) (steady : Steady ⟨a, s⟩) :
    Provided ⟨a, s⟩ := by
  obtain ⟨activity, site⟩ := w
  dsimp only at h
  have retains := retains_proceed h
  have bundled : s.register.source.isSome = true → s.register.bundle.isSome = true :=
    fun follows => retains.bundle (p.bundled (retains.source follows))
  cases proceed_cases h with
  | look =>
      refine ⟨steady, bundled, ?_, by simp, by simp⟩
      intro e calls
      cases calls with
      | here => exact p.provides (.here (by rintro ⟨⟩))
      | known _ _ known =>
          cases known
          exact p.provides (.here (by rintro ⟨⟩))
      | next leaving => cases leaving
  | chores goes done => exact p.chores h goes done steady
  | handsOver => exact ⟨steady, bundled, steady.provides_of_migrating rfl, by simp, by simp⟩
  | fallsShort => exact ⟨steady, bundled, steady.provides_of_migrating rfl, by simp, by simp⟩
  | restores =>
      refine ⟨steady, bundled, ?_, by simp, by simp⟩
      intro e calls
      cases calls with
      | here early | known early => exact absurd rfl early
      | next leaving =>
          cases leaving
          exact trivial
  | adopts => exact p.adopts rfl steady
  | leaves => exact p.leaves steady

theorem status_run_cases (id : ContainerId) (bundle : Path) (s : Site σ) :
    (s.run rig id bundle).2.register.status = s.register.status ∨
      (s.run rig id bundle).2.register.status = .running := by
  unfold Site.run Site.changeStatus
  cases changed : s.register.changeStatus .running with
  | error e => exact .inl rfl
  | ok r =>
      obtain ⟨_, _, rfl⟩ := canChange_of_changeStatus changed
      exact .inr rfl

theorem Provided.step {w w' : Working σ} {e : Event} {a : Answer} (p : Provided w)
    (timely : e.assigns = true → w.status = .standBy)
    (performed : e.perform settings rig w = some (a, w')) : Provided w' := by
  have steady := p.toSteady.step timely performed
  by_cases joins : ∃ source bundle, e = .join source bundle
  · obtain ⟨source, bundle, rfl⟩ := joins
    cases performed
    exact p.joins (timely rfl) source bundle steady
  have retains := retains_of_perform performed fun source bundle h => joins ⟨source, bundle, h⟩
  cases perform_cases performed with
  | chores _ done =>
      refine p.of_same steady retains (.inl done.kept.status) fun _ some => ?_
      rwa [done.kept.chain]
  | ticks ticks =>
      exact p.of_same steady retains (.inl ticks.status_eq) fun idle => absurd ticks.running idle
  | eases _ eases =>
      refine p.of_same steady retains (eases.status.imp id Status.isFree_of_eases) fun _ some => ?_
      rwa [eases.chain]
  | runs container bundle =>
      have shifts : Shifts rig.recorded _ _ := shifts_run container bundle w.site
      refine p.of_same steady retains ?_ fun _ some => ?_
      · exact (status_run_cases container bundle w.site).imp id fun running => by
          rw [running]
          rfl
      · rwa [shifts.chain]
  | received disk => exact p.of_same steady retains (.inl rfl) fun _ some => some
  | accepts status _ => exact p.accepts status _ steady
  | silence => exact p.silence steady
  | proceeds => exact p.proceed (proceed_of_perform performed) steady

theorem Course.provided {disk : Disk} {env : σ} {w : Working σ} {ms : List (Moment σ)}
    (course : Course settings rig (.started disk env) ms w) (timely : Timely ms) : Provided w :=
  course.preserves_timely (P := fun _ w => Provided w) timely (.started disk env)
    fun p timely performed => p.step timely performed

/-- Whenever the loop comes to restore a container, the node has its identifier, its bundle and a
dump to restore it from, and so launches it and goes on to run it. -/
theorem restore_provided {disk : Disk} {env : σ} {w : Working σ} {ms : List (Moment σ)}
    (course : Course settings rig (.started disk env) ms w) (timely : Timely ms)
    (entering : w.activity = .entering .restoring) :
    ∃ id bundle latest, w.site.register.container = some id ∧
      w.site.register.bundle = some bundle ∧ w.chain.latest? = some latest ∧
      Event.proceed.perform settings rig w = some (.nothing, ⟨.leaving .restoring .running,
        restoredSite rig.recorded (.restore id (latest.pathIn settings.dumpPath) bundle)
          w.site⟩) := by
  have p := course.provided timely
  have known : w.Calls .restoring :=
    .known (by rw [entering]; nofun) rfl (by rw [entering]; rfl)
  obtain ⟨container, bundle, dumps⟩ := p.provides known
  obtain ⟨id, hid⟩ := Option.isSome_iff_exists.1 container
  obtain ⟨path, hpath⟩ := Option.isSome_iff_exists.1 bundle
  have hlatest : w.chain.latest? = some (w.chain.dumps.getLast dumps) := by
    rw [Chain.latest?_eq, List.getLast?_eq_some_getLast dumps]
  refine ⟨id, path, _, hid, hpath, hlatest, ?_⟩
  have restored : w.site.restore settings rig.recorded = (.running, restoredSite rig.recorded
      (.restore id ((w.chain.dumps.getLast dumps).pathIn settings.dumpPath) path) w.site) := by
    unfold Site.restore
    rw [hid, hpath, show w.site.register.chain.latest? = _ from hlatest]
    rfl
  rw [Event.perform, entering, Site.proceed, Site.enter, restored]

/-- A replica whose source fell silent: it has the bundle from its operator, the container from
the acknowledgement of its source, and the dump from its disk. -/
theorem restore_provided_sample :
    let es : List Event := [.join "s" (.ofText "/b"), .proceed, .proceed,
      .message "h" (.joinAck ⟨sampleContainer⟩), .proceed, .proceed, .proceed, .proceed, .silence,
      .proceed, .proceed, .proceed, .proceed, .proceed, .proceed]
    let w := sampleAfter es
    Timely (sampleMoments es) ∧ w.activity = .entering .restoring ∧
      w.site.register.container = some sampleContainer ∧
      w.site.register.bundle = some (.ofText "/b") ∧ w.chain.latest? = some ⟨.full, 1, 0⟩ ∧
      ∃ w', Event.proceed.perform .sample .sample w = some (.nothing, w') ∧
        w'.activity = .leaving .restoring .running := by
  intro es w
  have timely : Timely (sampleMoments es) := by decide +kernel
  have entering : w.activity = .entering .restoring := rfl
  obtain ⟨_, _, _, _, _, _, restores⟩ :=
    restore_provided (course_sample es) timely entering
  exact ⟨timely, entering, rfl, rfl, rfl, _, restores, rfl⟩

end Node

end LiveMigration
