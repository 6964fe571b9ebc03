import LiveMigration.Proofs.Node.Course
import LiveMigration.Proofs.Node.Dumping

/-!
Every event of a node is one of a few turns. Most are chores; the others change the status,
take dumps, or replace the chain. This is the only place where the events are taken apart.
-/

namespace LiveMigration

/-- The changes of a status that are not made by the loop of the node. -/
def Status.moves : Status → Status → Bool
  | .standBy, .running | .standBy, .restoring | .standBy, .joining => true
  | .restoring, .running => true
  | .running, .migrating | .running, .stopped | .running, .failed => true
  | .failed, .terminated | .terminated, .terminated => false
  | _, .terminated => true
  | _, _ => false

/-- Those of them that do not begin to run a container or to restore it. -/
def Status.eases (s s' : Status) : Bool :=
  s.moves s' && (s' == .joining || s'.isFinal || s' == .terminated || s' == .migrating)

namespace Node

variable {σ : Type} {settings : Settings} {rig : Rig σ}

/-- A step that concerns neither the dumps nor the disk; it may launch a process. -/
structure Rests (rig : Rig σ) (s s' : Site σ) : Prop where
  chain : s'.register.chain = s.register.chain
  closed : s'.register.closed = s.register.closed
  disk : s'.disk = s.disk
  env : s'.env = s.env ∨ ∃ l, s'.env = rig.launched l s.env

/-- Such a step from outside the loop. -/
structure Shifts (rig : Rig σ) (s s' : Site σ) : Prop extends Rests rig s s' where
  status : s'.register.status = s.register.status ∨
    s.register.status.moves s'.register.status = true

/-- The launches whose end nobody has dealt with yet. -/
def Site.pending (s : Site σ) : List Engine.Launch :=
  s.node.processes ++ s.node.endings.map Ending.launch

/-- Such a step that begins no process and no restore. -/
structure Eases (s s' : Site σ) : Prop where
  chain : s'.register.chain = s.register.chain
  closed : s'.register.closed = s.register.closed
  disk : s'.disk = s.disk
  env : s'.env = s.env
  processes : s'.node.processes.Sublist s.node.processes
  pending : s'.pending ⊆ s.pending
  status : s'.register.status = s.register.status ∨
    s.register.status.eases s'.register.status = true

theorem Eases.refl (s : Site σ) : Eases s s :=
  ⟨rfl, rfl, rfl, rfl, .refl _, List.Subset.refl _, .inl rfl⟩

theorem Eases.shifts {s s' : Site σ} (h : Eases s s') : Shifts rig s s' :=
  ⟨⟨h.chain, h.closed, h.disk, .inl h.env⟩,
    h.status.imp id fun eases => (Bool.and_eq_true_iff.1 eases).1⟩

theorem Rests.refl (s : Site σ) : Rests rig s s := ⟨rfl, rfl, rfl, .inl rfl⟩

theorem Shifts.refl (s : Site σ) : Shifts rig s s := ⟨.refl s, .inl rfl⟩

/-- Where the loop goes from one part of a handler to the next if it has only chores to do. -/
inductive Activity.Goes : Activity → Activity → Prop
  | final {e : Status} (h : e.isFinal = true) : Goes (.entering e) .deciding
  | stand (watching : Bool) : Goes (.entering .standBy) (.standBy watching)
  | run : Goes (.entering .running) .cadence
  | ask (source : String) (m : Rpc.Join) : Goes (.entering .joining) (.asking source m)
  | askNobody : Goes (.entering .joining) (.leaving .joining .failed)
  | search : Goes (.entering .recovery) .recovering
  | restoreNothing : Goes (.entering .restoring) (.leaving .restoring .failed)
  | terminate {next : Status} (h : next.isFinal = true) :
      Goes (.entering .terminated) (.leaving .terminated next)
  | wait (a : Activity) : Goes a a
  | wake : Goes .cadence .deciding
  | wakeUp (watching : Bool) : Goes (.standBy watching) .deciding
  | handed (t : Target) (m : Rpc.Migrate) {next : Status} (h : next.isFinal = true) :
      Goes (.handingOver t m) (.leaving .migrating next)
  | answered (source : String) (m : Rpc.Join) {next : Status}
      (h : next = .standBy ∨ next = .failed) :
      Goes (.asking source m) (.leaving .joining next)
  | found {result : Except NodeError Chain}
      (h : ∀ chain, result = .ok chain → ∃ ds, chain = Chain.ofDumps ds) :
      Goes .recovering (.recovered result)
  | adoptNothing (e : NodeError) : Goes (.recovered (.error e)) (.leaving .recovery .failed)

/-- The site after a container was restored from the latest dump of its chain. -/
def restoredSite (rig : Rig σ) (l : Engine.Launch) (s : Site σ) : Site σ :=
  (s.launch rig l).modify Register.closeChain

inductive Proceeds (settings : Settings) (rig : Rig σ) :
    Activity → Site σ → Activity → Site σ → Prop
  | look (s : Site σ) : Proceeds settings rig .deciding s (.entering s.register.status) s
  | chores {a a' : Activity} {s s' : Site σ} (goes : a.Goes a') (h : Chores settings rig s s') :
      Proceeds settings rig a s a' s'
  | handsOver {t : Target} {m : Rpc.Migrate} {s s' : Site σ}
      (h : HandsOver settings rig t m s s') :
      Proceeds settings rig (.entering .migrating) s (.handingOver t m) s'
  | fallsShort {s s' : Site σ} (h : FallsShort settings rig s s') :
      Proceeds settings rig (.entering .migrating) s (.leaving .migrating .failed) s'
  | restores {s : Site σ} {id : ContainerId} {bundle : Path} {latest : Dump}
      (h : s.register.chain.latest? = some latest) :
      Proceeds settings rig (.entering .restoring) s (.leaving .restoring .running)
        (restoredSite rig (.restore id (latest.pathIn settings.dumpPath) bundle) s)
  | adopts (chain : Chain) (s : Site σ) :
      Proceeds settings rig (.recovered (.ok chain)) s (.leaving .recovery .restoring)
        (s.modify fun r => { r with chain, closed := none, source := none })
  | leaves (entered next : Status) (s : Site σ) :
      Proceeds settings rig (.leaving entered next) s .deciding (s.leave entered next)

theorem chores_beginJoin (s : Site σ) : Chores settings rig s s.beginJoin.2 :=
  .single (.node ⟨rfl, rfl, rfl⟩ rfl rfl)

theorem chores_finishJoin (r : Except RpcError ContainerId) (s : Site σ) :
    Chores settings rig s (s.finishJoin r).2 := by
  cases r <;> exact .single (.node ⟨rfl, rfl, rfl⟩ rfl rfl)

theorem ofDumps_of_recover {disk : Disk} {chain : Chain}
    (h : Site.recover settings disk = .ok chain) : ∃ ds, chain = Chain.ofDumps ds := by
  unfold Site.recover at h
  simp only [bind, Except.bind, pure, Except.pure] at h
  split at h
  · cases h
  split at h
  · cases h
  split at h
  · cases h
  · cases h
    exact ⟨_, rfl⟩

theorem enter_cases {e : Status} {s s' : Site σ} {a : Activity}
    (h : s.enter settings rig e = (some a, s')) :
    Proceeds settings rig (.entering e) s a s' := by
  unfold Site.enter at h
  cases e with
  | stopped =>
      cases h
      exact .chores (.final rfl) .refl
  | failed =>
      cases h
      exact .chores (.final rfl) .refl
  | standBy =>
      cases h
      exact .chores (.stand _) .refl
  | running =>
      cases h
      exact .chores .run .refl
  | migrating =>
      dsimp only at h
      split at h <;> rename_i hp <;> cases h <;>
        obtain ⟨t, m, he, hands⟩ | ⟨⟨f, he⟩, short⟩ := prepareHandoff_cases hp
      · cases he
        exact .handsOver hands
      · cases he
      · cases he
      · exact .fallsShort short
  | restoring =>
      unfold Site.restore at h
      dsimp only at h
      split at h
      · rename_i hlatest
        cases h
        exact .restores hlatest
      · cases h
        exact .chores .restoreNothing .refl
  | joining =>
      have begun : Chores settings rig _ _ := chores_beginJoin s
      dsimp only at h
      split at h
      · rename_i hb
        rw [hb] at begun
        cases h
        exact .chores .askNobody begun
      · rename_i hb
        rw [hb] at begun
        split at h
        · cases h
          exact .chores (.ask _ _) begun
        · cases h
          exact .chores .askNobody (begun.trans (chores_finishJoin _ _))
  | recovery =>
      cases h
      exact .chores .search .refl
  | terminated =>
      have done : Chores settings rig _ _ := chores_terminate s
      cases h
      refine .chores (.terminate ?_) done
      split
      · split <;> rfl
      · rfl

theorem proceed_cases {a a' : Activity} {s s' : Site σ}
    (h : s.proceed settings rig a = (some a', s')) : Proceeds settings rig a s a' s' := by
  unfold Site.proceed at h
  cases a with
  | deciding =>
      cases h
      exact .look s
  | entering e => exact enter_cases h
  | cadence =>
      dsimp only at h
      split at h
      · cases h
        exact .chores (.wait _) .refl
      · cases h
        exact .chores .wake .refl
  | standBy watching =>
      dsimp only at h
      split at h
      · cases h
        cases watching with
        | true => exact .chores (.wait _) (.single (.node (.refl _) rfl rfl))
        | false => exact .chores (.wait _) .refl
      · cases h
        exact .chores (.wakeUp _) .refl
  | handingOver t m =>
      have handed : Chores settings rig _ _ :=
        chores_call t.rpcAddress settings.limits.rpc (.migrate m) s
      dsimp only [Site.handOver, Rpc.callMigrate] at h
      split at h <;> rename_i hc <;> obtain ⟨_, rfl⟩ := Prod.mk.inj hc <;> cases h <;>
        exact .chores (.handed t m rfl) handed
  | asking source m =>
      dsimp only at h
      split at h
      · cases h
        exact .chores (.answered _ _ (.inl rfl)) (chores_finishJoin _ s)
      · have asked : Chores settings rig _ _ :=
          chores_call source settings.limits.rpc (.join m) s
        cases h
        refine .chores (.answered _ _ ?_) (asked.trans (chores_finishJoin _ _))
        cases (Site.askSource settings rig source m s).1 with
        | ok => exact .inl rfl
        | error => exact .inr rfl
  | recovering =>
      cases h
      exact .chores (.found fun _ => ofDumps_of_recover) .refl
  | recovered result =>
      cases h
      cases result with
      | ok chain => exact .adopts chain s
      | error e => exact .chores (.adoptNothing e) .refl
  | leaving entered next =>
      cases h
      exact .leaves entered next s

/-! ## Changes of the status -/

theorem canChange_of_changeStatus {r r' : Register} {target : Status}
    (h : r.changeStatus target = .ok r') :
    r.status ≠ .failed ∧ r.status.canChange target = true ∧
      r' = { r with status := target, changes := r.changes + 1 } := by
  unfold Register.changeStatus at h
  cases hc : r.status.check target with
  | error e =>
      rw [hc] at h
      cases h
  | ok =>
      rw [hc] at h
      cases h
      have := Status.check_eq_ok_iff.1 hc
      exact ⟨this.1, this.2, rfl⟩

theorem shifts_changeStatus {s : Site σ} {target : Status}
    (h : ∀ source : Status, source ≠ .failed → source.canChange target = true →
      source.moves target = true) : Shifts rig s (s.changeStatus target).2 := by
  unfold Site.changeStatus
  split
  · rename_i r hr
    obtain ⟨live, allowed, rfl⟩ := canChange_of_changeStatus hr
    exact ⟨⟨rfl, rfl, rfl, .inl rfl⟩, .inr (h _ live allowed)⟩
  · exact .refl s

theorem eases_changeStatus {s : Site σ} {target : Status}
    (h : ∀ source : Status, source ≠ .failed → source.canChange target = true →
      source.eases target = true) : Eases s (s.changeStatus target).2 := by
  unfold Site.changeStatus
  split
  · rename_i r hr
    obtain ⟨live, allowed, rfl⟩ := canChange_of_changeStatus hr
    exact ⟨rfl, rfl, rfl, rfl, .refl _, List.Subset.refl _, .inr (h _ live allowed)⟩
  · exact .refl s

theorem eases_onSignal (s : Site σ) : Eases s s.onSignal := by
  refine eases_changeStatus ?_
  intro source live allowed
  cases source <;> first | rfl | exact absurd rfl live | cases allowed

theorem eases_join (source : String) (bundle : Path) (s : Site σ) :
    Eases s (s.join source bundle).2 := by
  let noted := s.modify fun r => { r with source := some source, bundle := some bundle }
  have eased : Eases noted (noted.changeStatus .joining).2 := by
    refine eases_changeStatus ?_
    intro source live allowed
    cases source <;> first | rfl | cases allowed
  have same : (s.join source bundle).2 = (noted.changeStatus .joining).2 := by
    unfold Site.join
    dsimp only
    split <;> rename_i h
    · exact (congrArg Prod.snd h).symm
    · exact (congrArg Prod.snd h).symm
  rw [same]
  exact ⟨eased.chain, eased.closed, eased.disk, eased.env, eased.processes, eased.pending,
    eased.status⟩

theorem env_changeStatus (s : Site σ) (target : Status) :
    (s.changeStatus target).2.env = s.env := by
  unfold Site.changeStatus
  split <;> rfl

theorem shifts_run (id : ContainerId) (bundle : Path) (s : Site σ) :
    Shifts rig s (s.run rig id bundle).2 := by
  have shifted : Shifts rig s (s.changeStatus .running).2 := by
    refine shifts_changeStatus ?_
    intro source live allowed
    cases source <;> first | rfl | cases allowed
  have env := env_changeStatus s .running
  unfold Site.run
  split <;> rename_i h <;> rw [h] at shifted env
  · exact shifted
  · refine ⟨⟨shifted.chain, shifted.closed, shifted.disk, .inr ⟨.run id bundle, ?_⟩⟩,
      shifted.status⟩
    exact congrArg (rig.launched (.run id bundle)) env

theorem eases_requestMigration (id : ContainerId) (s : Site σ) :
    Eases s (s.requestMigration id).2 := by
  have eased : Eases s (s.changeStatus .migrating).2 := by
    refine eases_changeStatus ?_
    intro source live allowed
    cases source <;> first | rfl | cases allowed
  unfold Site.requestMigration
  split
  · exact .refl s
  split
  · exact .refl s
  split
  · exact .refl s
  split <;> rename_i h <;> rw [h] at eased <;> exact eased

theorem recordEnding_cases (e : Ending) (r : Register) :
    (Site.recordEnding e r).chain = r.chain ∧ (Site.recordEnding e r).closed = r.closed ∧
      ((Site.recordEnding e r).status = r.status ∨
        r.status.eases (Site.recordEnding e r).status = true) := by
  unfold Site.recordEnding
  dsimp only
  generalize hn : (if r.container = some e.launch.container then { r with live := false }
    else r) = noted
  have alike : Alike r noted := by
    subst hn
    split <;> exact ⟨rfl, rfl, rfl⟩
  rw [← alike.chain, ← alike.closed, ← alike.status]
  cases hnext : e.next? with
  | none => exact ⟨rfl, rfl, .inl rfl⟩
  | some next =>
      have final : next.isFinal = true := by
        unfold Ending.next? at hnext
        split at hnext <;> cases hnext <;> rfl
      dsimp only
      split
      · rename_i running
        cases hc : noted.changeStatus next with
        | error => exact ⟨rfl, rfl, .inl rfl⟩
        | ok changed =>
            obtain ⟨_, _, rfl⟩ := canChange_of_changeStatus hc
            refine ⟨rfl, rfl, .inr ?_⟩
            simp only [Except.toOption, Option.getD_some, running]
            cases next <;> first | rfl | cases final
      · exact ⟨rfl, rfl, .inl rfl⟩

theorem eases_supervise (s : Site σ) : Eases s s.supervise := by
  unfold Site.supervise
  split
  · exact .refl s
  · rename_i e rest h
    have changed := recordEnding_cases e s.register
    refine ⟨changed.1, changed.2.1, rfl, rfl, .refl _, ?_, changed.2.2⟩
    intro l mem
    simp only [Site.pending, h, List.map_cons, List.mem_append, List.mem_cons] at mem ⊢
    exact mem.imp id .inr

theorem eases_endProcess (l : Engine.Launch) (result : Except EngineError Exit) (s : Site σ) :
    Eases s ((s.endProcess l result).getD s) := by
  unfold Site.endProcess
  split
  · rename_i launched
    refine ⟨rfl, rfl, rfl, rfl, List.erase_sublist, ?_, .inl rfl⟩
    intro l' mem
    simp only [Option.getD_some, Site.pending, List.map_append, List.map_cons, List.map_nil,
      List.mem_append, List.mem_singleton] at mem ⊢
    rcases mem with kept | kept | rfl
    · exact .inl (List.mem_of_mem_erase kept)
    · exact .inr kept
    · exact .inl launched
  · exact .refl s

/-! ## Requests -/

/-- The site after a handoff was accepted. -/
def acceptedSite (m : Rpc.Migrate) (s : Site σ) : Site σ :=
  s.modify fun r => { r with
    chain := Chain.ofDumps m.dumps
    closed := none
    container := some m.container
    bundle := some m.bundle
    source := none
    status := .restoring
    changes := r.changes + 1 }

theorem onMigrate_cases (settings : Settings) (m : Rpc.Migrate) (s : Site σ) :
    (s.onMigrate settings m).2 = s ∨
      (s.onMigrate settings m).1 = .ack ∧ s.register.status = .standBy ∧
        (s.onMigrate settings m).2 = acceptedSite m s ∧
        ∀ d ∈ m.dumps, s.disk.isDirectory (d.pathIn settings.dumpPath) = true := by
  unfold Site.onMigrate
  split
  · exact .inl rfl
  rename_i status
  have status : s.register.status = .standBy := by simpa using status
  split
  · exact .inl rfl
  rename_i present
  have present : ∀ d ∈ m.dumps, s.disk.isDirectory (d.pathIn settings.dumpPath) = true := by
    intro d hd
    have := List.find?_eq_none.1 present d hd
    simpa using this
  have changed : (s.modify fun r => { r with
      chain := Chain.ofDumps m.dumps
      closed := none
      container := some m.container
      bundle := some m.bundle
      source := none }).changeStatus .restoring = (.ok (), acceptedSite m s) := by
    have check : s.register.status.check .restoring = .ok () := by
      rw [status]
      rfl
    unfold Site.changeStatus Register.changeStatus
    rw [Site.register_modify, check]
    rfl
  dsimp only
  rw [changed]
  exact .inr ⟨rfl, status, rfl, present⟩

inductive Turn (settings : Settings) (rig : Rig σ) (w : Working σ) :
    Event → Answer → Working σ → Prop
  | chores {e : Event} {a : Answer} {s : Site (Recorded σ)}
      (quiet : ∀ d, a ≠ .dumped (.ok (some d)))
      (h : Chores settings rig.recorded w.site s) : Turn settings rig w e a { w with site := s }
  | ticks {plan : Plan} {s : Site (Recorded σ)} (h : Ticks settings rig.recorded plan w.site s) :
      Turn settings rig w .tick (.dumped (.ok (some plan.dump))) { w with site := s }
  | eases {e : Event} {a : Answer} {s : Site (Recorded σ)}
      (quiet : ∀ d, a ≠ .dumped (.ok (some d))) (h : Eases w.site s) :
      Turn settings rig w e a { w with site := s }
  | runs (id : ContainerId) (bundle : Path) :
      Turn settings rig w (.run id bundle) (.outcome (w.site.run rig.recorded id bundle).1)
        { w with site := (w.site.run rig.recorded id bundle).2 }
  | received (disk : Disk) :
      Turn settings rig w (.received disk) .nothing { w with site := { w.site with disk } }
  | accepts {host : String} {m : Rpc.Migrate} (status : w.status = .standBy)
      (present : ∀ d ∈ m.dumps, w.site.disk.isDirectory (d.pathIn settings.dumpPath) = true) :
      Turn settings rig w (.message host (.migrate m)) (.reply .ack)
        { w with site := acceptedSite m w.site }
  | silence : Turn settings rig w .silence .nothing
      ⟨(w.site.onSilence w.activity).1, (w.site.onSilence w.activity).2⟩
  | proceeds {a : Activity} {s : Site (Recorded σ)}
      (h : Proceeds settings rig.recorded w.activity w.site a s) :
      Turn settings rig w .proceed .nothing ⟨a, s⟩

theorem perform_cases {e : Event} {w w' : Working σ} {a : Answer}
    (h : e.perform settings rig w = some (a, w')) : Turn settings rig w e a w' := by
  cases e with
  | proceed =>
      obtain rfl := answer_of_proceed h
      exact .proceeds (proceed_cases (proceed_of_perform h))
  | silence =>
      cases h
      exact .silence
  | tick =>
      obtain ⟨r, s, ticked, rfl, rfl⟩ := dumpTick_of_perform h
      obtain ⟨done, quiet⟩ | ⟨plan, dumped, ticks⟩ := dumpTick_cases ticked
      · refine .chores ?_ done
        rintro d ⟨⟩
        exact quiet d rfl
      · cases r <;> cases dumped
        exact .ticks ticks
  | pingRound =>
      cases h
      exact .chores (by simp) (chores_pingTargets w.site)
  | drop silent =>
      cases h
      exact .chores (by simp) (.single (.node (alike_dropTargets silent _) rfl rfl))
  | message host m =>
      cases m with
      | join m =>
          cases h
          exact .chores (by simp) (chores_onJoin host m w.site)
      | joinAck m =>
          cases h
          exact .chores (by simp) (chores_onJoinAck m w.site)
      | ping =>
          cases h
          exact .chores (by simp) (chores_onPing w.site)
      | migrate m =>
          have answered : some (Answer.reply (w.site.onMigrate settings m).1,
              { w with site := (w.site.onMigrate settings m).2 }) = some (a, w') := h
          obtain ⟨rfl, rfl⟩ := Prod.mk.inj (Option.some.inj answered)
          obtain same | ⟨ack, status, accepted, present⟩ := onMigrate_cases settings m w.site
          · rw [same]
            exact .chores (by simp) .refl
          · rw [ack, accepted]
            exact .accepts status present
  | command c =>
      obtain ⟨r, s, executed, rfl, rfl⟩ := execute_of_perform h
      cases c with
      | checkpoint =>
          have done : Chores settings rig.recorded _ _ := chores_checkpoint w.site
          obtain ⟨-, rfl⟩ := Prod.mk.inj executed
          exact .chores (by simp) done
      | migrate id =>
          have eased := eases_requestMigration id w.site
          obtain ⟨-, rfl⟩ := Prod.mk.inj executed
          exact .eases (by simp) eased
  | run id bundle =>
      cases h
      exact .runs id bundle
  | join source bundle =>
      cases h
      exact .eases (by simp) (eases_join source bundle w.site)
  | signal =>
      cases h
      exact .eases (by simp) (eases_onSignal w.site)
  | processEnd l result =>
      cases h
      exact .eases (by simp) (eases_endProcess l result w.site)
  | supervise =>
      cases h
      exact .eases (by simp) (eases_supervise w.site)
  | received disk =>
      cases h
      exact .received disk

end Node

end LiveMigration
