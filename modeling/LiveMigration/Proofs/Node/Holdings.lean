import LiveMigration.Proofs.Node.Underway

/-!
What a node holds besides its dumps: its task, its targets and its processes. Dumps, transfers and
changes of the status leave all of this alone. Some events change a part of it, each in its own way,
and this is told once for all of them.
-/

namespace LiveMigration.Node

variable {σ : Type} {settings : Settings} {rig : Rig σ}

structure Holdings where
  container : Option ContainerId
  bundle : Option Path
  source : Option String
  targets : List Target
  published : List Target
  live : Bool
  processes : List Engine.Launch
  endings : List Ending

namespace Site

def holdings (s : Site σ) : Holdings where
  container := s.register.container
  bundle := s.register.bundle
  source := s.register.source
  targets := s.register.targets
  published := s.register.published
  live := s.register.live
  processes := s.node.processes
  endings := s.node.endings

theorem holdings_of_node {s s' : Site σ} (h : s'.node = s.node) : s'.holdings = s.holdings := by
  simp only [holdings, register, h]

/-! ## What leaves it alone -/

theorem holdings_changeStatus (s : Site σ) (target : Status) :
    (s.changeStatus target).2.holdings = s.holdings := by
  unfold changeStatus
  split
  · rename_i r hr
    obtain ⟨_, _, rfl⟩ := canChange_of_changeStatus hr
    rfl
  · rfl

theorem holdings_leave (e n : Status) (s : Site σ) : (s.leave e n).holdings = s.holdings := by
  by_cases status : s.register.status = e
  · unfold leave Register.changeStatusFrom
    rw [if_pos status]
    cases changed : s.register.changeStatus n with
    | error => rfl
    | ok r =>
        obtain ⟨_, _, rfl⟩ := canChange_of_changeStatus changed
        rfl
  · rw [leave_of_ne status]

theorem holdings_onSilence (a : Activity) (s : Site σ) :
    (s.onSilence a).2.holdings = s.holdings := by
  obtain same | ⟨_, silent⟩ := onSilence_cases a s
  · rw [same]
  · rw [silent]
    exact holdings_leave _ _ s

theorem holdings_of_takeDump {id : ContainerId} {plan : Plan} {leaveRunning : Bool}
    {s s' : Site σ} {r : Except EngineError Unit}
    (h : s.takeDump settings rig id plan leaveRunning = (r, s')) : s'.holdings = s.holdings :=
  holdings_of_node (node_of_takeDump h)

theorem holdings_passChains (pass : Chain → σ → Nat × Chain × σ) (s : Site σ) :
    (s.passChains pass).holdings = s.holdings := by
  cases closed : s.register.closed with
  | none =>
      rw [passChains_of_none closed]
      rfl
  | some c =>
      rw [passChains_of_some closed]
      rfl

theorem holdings_syncTarget (s : Site σ) (t : Target) :
    (s.syncTarget rig t).holdings = s.holdings := by
  rw [syncTarget_eq]
  exact holdings_passChains _ s

theorem holdings_syncTargets (ts : List Target) (s : Site σ) :
    (ts.foldl (syncTarget rig) s).holdings = s.holdings := by
  induction ts generalizing s with
  | nil => rfl
  | cons t ts ih => exact (ih _).trans (holdings_syncTarget s t)

theorem holdings_dumpTick (s : Site σ) : (s.dumpTick settings rig).2.holdings = s.holdings := by
  unfold dumpTick
  split
  · rfl
  split
  · rfl
  split
  · rfl
  rename_i plan _
  split
  · rename_i taken
    exact holdings_of_takeDump taken
  · rename_i s₁ taken
    have before : s₁.holdings = s.holdings := holdings_of_takeDump taken
    let pushed := s₁.modify (·.push plan.dump)
    have synced : (pushed.register.targets.foldl (syncTarget rig) pushed).holdings = s.holdings :=
      (holdings_syncTargets _ pushed).trans before
    dsimp only
    split <;> exact synced

theorem holdings_takeFinalDumps (id : ContainerId) (s : Site σ) :
    (s.takeFinalDumps settings rig id).2.holdings = s.holdings := by
  unfold takeFinalDumps
  split
  · rfl
  split
  · rename_i taken
    exact holdings_of_takeDump taken
  rename_i s₁ taken
  have first : s₁.holdings = s.holdings := holdings_of_takeDump taken
  dsimp only
  split
  · exact first
  split <;> rename_i last <;> exact (holdings_of_takeDump last).trans first

theorem holdings_prepareHandoff (s : Site σ) :
    (s.prepareHandoff settings rig).2.holdings = s.holdings := by
  unfold prepareHandoff
  split
  · rename_i id bundle t _ _ _
    have dumped : (s.takeFinalDumps settings rig id).2.holdings = s.holdings :=
      holdings_takeFinalDumps id s
    split
    · rename_i h
      rwa [h] at dumped
    · rename_i s₁ h
      rw [h] at dumped
      have completed : (s₁.completeTarget rig t).2.holdings = s₁.holdings := rfl
      split
      · rename_i h
        rw [h] at completed
        exact completed.trans dumped
      · rename_i h
        rw [h] at completed
        split <;> exact completed.trans dumped
  · rfl
  · rfl

theorem holdings_clearImage (image : Path) (s : Site σ) :
    (s.clearImage image).2.holdings = s.holdings := by
  unfold clearImage
  split
  · split <;> rfl
  · rfl

theorem holdings_checkpoint (s : Site σ) :
    (s.checkpoint settings rig).2.holdings = s.holdings := by
  unfold checkpoint
  split
  · rfl
  split
  · rfl
  split
  · rfl
  rename_i d _
  have cleared := holdings_clearImage (d.pathIn settings.dumpPath) s
  split
  · rename_i h
    rwa [h] at cleared
  · rename_i h
    rw [h] at cleared
    split <;> rename_i taken <;> exact (holdings_of_takeDump taken).trans cleared

theorem holdings_requestMigration (id : ContainerId) (s : Site σ) :
    (s.requestMigration id).2.holdings = s.holdings := by
  have changed := holdings_changeStatus s .migrating
  unfold requestMigration
  split
  · rfl
  split
  · rfl
  split
  · rfl
  split <;> rename_i h <;> rwa [h] at changed

theorem holdings_execute (c : Control.Command) (s : Site σ) :
    (s.execute settings rig c).2.holdings = s.holdings := by
  cases c with
  | checkpoint => exact holdings_checkpoint s
  | migrate id => exact holdings_requestMigration id s

theorem holdings_onJoinAck (m : Rpc.JoinAck) (s : Site σ) :
    (s.onJoinAck m).2.holdings = s.holdings := by
  unfold onJoinAck
  split <;> rfl

theorem holdings_terminate (s : Site σ) : (s.terminate rig).2.holdings = s.holdings := by
  unfold terminate
  split
  · split <;> rename_i h <;> exact holdings_of_node (congrArg (·.2.node) h).symm
  · rfl

/-! ## What changes a part of it -/

theorem dropTargets_eq (silent : List Target) (r : Register) : ∃ ts ps,
    (dropTargets silent r).2 = { r with targets := ts, published := ps } := by
  unfold dropTargets
  generalize 0 = n
  induction silent generalizing n r with
  | nil => exact ⟨r.targets, r.published, rfl⟩
  | cons t ts ih =>
      rw [List.foldl_cons]
      dsimp only [Register.removeTarget]
      cases r.targets.find? (·.key == t.key) with
      | none => exact ih r n
      | some found => exact ih _ (n + 1)

theorem holdings_drop (silent : List Target) (s : Site σ) :
    (s.setRegister (dropTargets silent s.register).2).holdings = { s.holdings with
      targets := (dropTargets silent s.register).2.targets
      published := (dropTargets silent s.register).2.published } := by
  obtain ⟨ts, ps, dropped⟩ := dropTargets_eq silent s.register
  rw [dropped]
  rfl

theorem holdings_pingTargets (settings : Settings) (rig : Rig σ) (s : Site σ) :
    let silent := (silentTargets settings rig s.register.published s.env).1
    (s.pingTargets settings rig).2.holdings = { s.holdings with
      targets := (dropTargets silent s.register).2.targets
      published := (dropTargets silent s.register).2.published } :=
  holdings_drop _ s

theorem addTarget_eq (r : Register) (t : Target) : ∃ ts ps,
    (r.addTarget t).2 = { r with targets := ts, published := ps } := by
  unfold Register.addTarget
  split
  · exact ⟨r.targets, r.published, rfl⟩
  · exact ⟨_, _, rfl⟩

theorem onJoin_refused (rig : Rig σ) {s : Site σ} (container : s.register.container = none)
    (host : String) (m : Rpc.Join) : (s.onJoin rig host m).2 = s := by
  rw [onJoin, container]

theorem holdings_onJoin {s : Site σ} {id : ContainerId} (container : s.register.container = some id)
    (host : String) (m : Rpc.Join) :
    (s.onJoin rig host m).2.holdings = { s.holdings with
      targets := (s.register.addTarget (targetOf host m)).2.targets
      published := (s.register.addTarget (targetOf host m)).2.published } := by
  obtain ⟨ts, ps, added⟩ := addTarget_eq s.register (targetOf host m)
  rw [onJoin_eq container, holdings_passChains]
  change (s.setRegister (s.register.addTarget (targetOf host m)).2).holdings = _
  rw [added]
  rfl

/-- The supervisor knows that a process has ended. -/
def afterEnding (e : Ending) (s : Site σ) : Bool :=
  s.register.live && decide (s.register.container ≠ some e.launch.container)

theorem holdings_recordEnding (e : Ending) (s : Site σ) :
    (s.setRegister (recordEnding e s.register)).holdings =
      { s.holdings with live := s.afterEnding e } := by
  unfold recordEnding
  dsimp only
  generalize hn : (if s.register.container = some e.launch.container then
    { s.register with live := false } else s.register) = noted
  have same : (s.setRegister noted).holdings = { s.holdings with live := s.afterEnding e } := by
    subst hn
    unfold afterEnding
    split <;> rename_i own
    · simp [own, holdings, setRegister, register]
    · simp [own, holdings, setRegister, register]
  cases e.next? with
  | none => exact same
  | some next =>
      dsimp only
      split
      · cases changed : noted.changeStatus next with
        | error => exact same
        | ok r =>
            obtain ⟨_, _, rfl⟩ := canChange_of_changeStatus changed
            exact same
      · exact same

theorem holdings_supervise {s : Site σ} {e : Ending} {rest : List Ending}
    (h : s.node.endings = e :: rest) :
    s.supervise.holdings = { s.holdings with live := s.afterEnding e, endings := rest } := by
  have recorded := holdings_recordEnding e s
  unfold supervise
  rw [h]
  simp only [holdings, setRegister, register, Holdings.mk.injEq] at recorded ⊢
  simp only [recorded, and_self]

theorem holdings_endProcess {s : Site σ} {l : Engine.Launch} (h : l ∈ s.node.processes)
    (result : Except EngineError Exit) :
    ((s.endProcess l result).getD s).holdings = { s.holdings with
      processes := s.node.processes.erase l
      endings := s.node.endings ++ [⟨l, result⟩] } := by
  rw [endProcess, if_pos h]
  rfl

theorem holdings_join (source : String) (bundle : Path) (s : Site σ) :
    (s.join source bundle).2.holdings =
      { s.holdings with source := some source, bundle := some bundle } := by
  have changed := holdings_changeStatus
    (s.modify fun r => { r with source := some source, bundle := some bundle }) .joining
  unfold join
  dsimp only
  split <;> rename_i h <;> rw [h] at changed <;> exact changed

/-- A container is run, or the node is not in a status for that. -/
theorem run_cases (rig : Rig σ) (id : ContainerId) (bundle : Path) (s : Site σ) :
    (s.run rig id bundle).2 = s ∨
      (s.run rig id bundle).1 = .ok () ∧
        (s.run rig id bundle).2.holdings = { s.holdings with
          container := some id
          bundle := some bundle
          live := true
          processes := s.node.processes ++ [.run id bundle] } ∧
        (s.run rig id bundle).2.env = rig.launched (.run id bundle) s.env := by
  unfold run
  cases h : s.register.changeStatus .running with
  | error e =>
      rw [changeStatus, h]
      exact .inl rfl
  | ok r =>
      obtain ⟨_, _, rfl⟩ := canChange_of_changeStatus h
      rw [changeStatus, h]
      exact .inr ⟨rfl, rfl, rfl⟩

end Site

/-! ## What an event does to it -/

/-- The event ends a round of pings, and with it drops the targets that were silent. -/
def Event.endsRound : Event → Bool
  | .pingRound | .drop _ => true
  | _ => false

inductive Touches (w : Working σ) : Event → Answer → Working σ → Prop
  | keeps {e : Event} {a : Answer} {w' : Working σ}
      (same : w'.site.holdings = w.site.holdings) : Touches w e a w'
  | runs {id : ContainerId} {bundle : Path} {w' : Working σ}
      (same : w'.site.holdings = { w.site.holdings with
        container := some id
        bundle := some bundle
        live := true
        processes := w.site.node.processes ++ [.run id bundle] })
      (deeds : w'.deeds = w.deeds ++ [.launched (.run id bundle)]) :
      Touches w (.run id bundle) (.outcome (.ok ())) w'
  | follows {source : String} {bundle : Path} {a : Answer} {w' : Working σ}
      (same : w'.site.holdings =
        { w.site.holdings with source := some source, bundle := some bundle }) :
      Touches w (.join source bundle) a w'
  | learns {source : String} {m : Rpc.Join} (id : ContainerId) {w' : Working σ}
      (asking : w.activity = .asking source m)
      (same : w'.site.holdings = { w.site.holdings with container := some id }) :
      Touches w .proceed .nothing w'
  | adopts {chain : Chain} {w' : Working σ} (recovered : w.activity = .recovered (.ok chain))
      (same : w'.site.holdings = { w.site.holdings with source := none }) :
      Touches w .proceed .nothing w'
  | restores {id : ContainerId} {image bundle : Path} {w' : Working σ}
      (entering : w.activity = .entering .restoring)
      (container : w.site.register.container = some id)
      (same : w'.site.holdings = { w.site.holdings with
        live := true
        processes := w.site.node.processes ++ [.restore id image bundle] })
      (deeds : w'.deeds = w.deeds ++ [.launched (.restore id image bundle)]) :
      Touches w .proceed .nothing w'
  | accepts {host : String} {m : Rpc.Migrate} {w' : Working σ} (status : w.status = .standBy)
      (same : w'.site.holdings = { w.site.holdings with
        container := some m.container, bundle := some m.bundle, source := none }) :
      Touches w (.message host (.migrate m)) (.reply .ack) w'
  | registers {host : String} {m : Rpc.Join} {id : ContainerId} {w' : Working σ}
      (container : w.site.register.container = some id)
      (same : w'.site.holdings = { w.site.holdings with
        targets := (w.site.register.addTarget (Site.targetOf host m)).2.targets
        published := (w.site.register.addTarget (Site.targetOf host m)).2.published }) :
      Touches w (.message host (.join m)) (.reply (.joined id.text)) w'
  | drops {e : Event} {a : Answer} (silent : List Target) {w' : Working σ}
      (round : e.endsRound = true)
      (same : w'.site.holdings = { w.site.holdings with
        targets := (Site.dropTargets silent w.site.register).2.targets
        published := (Site.dropTargets silent w.site.register).2.published }) :
      Touches w e a w'
  | ends {l : Engine.Launch} {result : Except EngineError Exit} {w' : Working σ}
      (launched : l ∈ w.site.node.processes)
      (same : w'.site.holdings = { w.site.holdings with
        processes := w.site.node.processes.erase l
        endings := w.site.node.endings ++ [⟨l, result⟩] }) :
      Touches w (.processEnd l result) .nothing w'
  | settles {e : Ending} {rest : List Ending} {w' : Working σ}
      (oldest : w.site.node.endings = e :: rest)
      (same : w'.site.holdings =
        { w.site.holdings with live := w.site.afterEnding e, endings := rest }) :
      Touches w .supervise .nothing w'

theorem touches_enter {e : Status} {s s' : Site (Recorded σ)} {a : Activity}
    (h : s.enter settings rig.recorded e = (some a, s')) :
    Touches ⟨.entering e, s⟩ .proceed .nothing ⟨a, s'⟩ := by
  unfold Site.enter at h
  cases e with
  | stopped | failed | standBy | running | recovery =>
      cases h
      exact .keeps rfl
  | migrating =>
      have prepared : (s.prepareHandoff settings rig.recorded).2.holdings = s.holdings :=
        Site.holdings_prepareHandoff s
      dsimp only at h
      split at h <;> rename_i hp <;> rw [hp] at prepared <;> cases h <;> exact .keeps prepared
  | restoring =>
      unfold Site.restore at h
      dsimp only at h
      split at h
      · rename_i container _ _
        cases h
        exact .restores rfl container rfl rfl
      · cases h
        exact .keeps rfl
  | joining =>
      dsimp only [Site.beginJoin] at h
      split at h <;> rename_i hb <;> obtain ⟨_, rfl⟩ := Prod.mk.inj hb
      · cases h
        exact .keeps rfl
      · split at h <;> cases h <;> exact .keeps rfl
  | terminated =>
      cases h
      exact .keeps (Site.holdings_terminate s)

theorem touches_finishJoin {source : String} {m : Rpc.Join} {s : Site (Recorded σ)}
    {asked : Site (Recorded σ)} (same : asked.holdings = s.holdings)
    (result : Except RpcError ContainerId) (a : Activity) :
    Touches ⟨.asking source m, s⟩ .proceed .nothing ⟨a, (asked.finishJoin result).2⟩ := by
  cases result with
  | ok id => exact .learns id rfl (congrArg (fun h => { h with container := some id }) same)
  | error e => exact .keeps same

theorem touches_proceed {a a' : Activity} {s s' : Site (Recorded σ)}
    (h : s.proceed settings rig.recorded a = (some a', s')) :
    Touches ⟨a, s⟩ .proceed .nothing ⟨a', s'⟩ := by
  unfold Site.proceed at h
  cases a with
  | deciding | cadence | recovering =>
      cases h
      exact .keeps rfl
  | entering e => exact touches_enter h
  | standBy watching =>
      dsimp only at h
      split at h <;> cases h
      · split <;> exact .keeps rfl
      · exact .keeps rfl
  | handingOver t m =>
      dsimp only [Site.handOver] at h
      split at h <;> rename_i hc <;> obtain ⟨_, rfl⟩ := Prod.mk.inj hc <;> cases h <;>
        exact .keeps rfl
  | asking source m =>
      dsimp only at h
      split at h
      · cases h
        exact touches_finishJoin rfl _ _
      · have asked : (s.askSource settings rig.recorded source m).2.holdings = s.holdings := rfl
        cases h
        exact touches_finishJoin asked _ _
  | recovered result =>
      cases h
      cases result with
      | ok chain => exact .adopts rfl rfl
      | error e => exact .keeps rfl
  | leaving e n =>
      cases h
      exact .keeps (Site.holdings_leave e n s)

theorem touches_run (id : ContainerId) (bundle : Path) (w : Working σ) :
    Touches w (.run id bundle) (.outcome (w.site.run rig.recorded id bundle).1)
      { w with site := (w.site.run rig.recorded id bundle).2 } := by
  obtain refused | ⟨accepted, same, env⟩ := Site.run_cases rig.recorded id bundle w.site
  · exact .keeps (congrArg Site.holdings refused)
  · rw [accepted]
    exact .runs same (congrArg Recorded.deeds env)

theorem touches_message {host : String} {m : Rpc.Message} (w : Working σ) :
    Touches w (.message host m) (.reply (w.site.handle settings rig.recorded host m).1)
      { w with site := (w.site.handle settings rig.recorded host m).2 } := by
  cases m with
  | join m =>
      cases container : w.site.register.container with
      | none =>
          have refused := Site.onJoin_refused rig.recorded container host m
          exact .keeps (congrArg Site.holdings refused)
      | some id =>
          have answer : (w.site.onJoin rig.recorded host m).1 = .joined id.text := by
            rw [onJoin_eq container]
          rw [Site.handle, answer]
          exact .registers container (Site.holdings_onJoin container host m)
  | joinAck m => exact .keeps (Site.holdings_onJoinAck m w.site)
  | ping => exact .keeps rfl
  | migrate m =>
      obtain same | ⟨ack, status, accepted, _⟩ := onMigrate_cases settings m w.site
      · exact .keeps (congrArg Site.holdings same)
      · rw [Site.handle, ack]
        exact .accepts status (congrArg Site.holdings accepted)

theorem touches_of_perform {w w' : Working σ} {e : Event} {a : Answer}
    (h : e.perform settings rig w = some (a, w')) : Touches w e a w' := by
  cases e with
  | proceed =>
      obtain rfl := answer_of_proceed h
      exact touches_proceed (proceed_of_perform h)
  | silence =>
      cases h
      exact .keeps (Site.holdings_onSilence w.activity w.site)
  | tick =>
      have ticked : (w.site.dumpTick settings rig.recorded).2.holdings = w.site.holdings :=
        Site.holdings_dumpTick w.site
      obtain ⟨_, _, performed, rfl, rfl⟩ := dumpTick_of_perform h
      rw [performed] at ticked
      exact .keeps ticked
  | pingRound =>
      cases h
      exact .drops _ rfl (Site.holdings_pingTargets settings rig.recorded w.site)
  | drop silent =>
      cases h
      exact .drops silent rfl (Site.holdings_drop silent w.site)
  | message host m =>
      cases h
      exact touches_message w
  | command c =>
      have done : (w.site.execute settings rig.recorded c).2.holdings = w.site.holdings :=
        Site.holdings_execute c w.site
      obtain ⟨_, _, performed, rfl, rfl⟩ := execute_of_perform h
      rw [performed] at done
      exact .keeps done
  | run id bundle =>
      cases h
      exact touches_run id bundle w
  | join source bundle =>
      cases h
      exact .follows (Site.holdings_join source bundle w.site)
  | signal =>
      cases h
      exact .keeps (Site.holdings_changeStatus w.site .terminated)
  | processEnd l result =>
      cases h
      by_cases launched : l ∈ w.site.node.processes
      · exact .ends launched (Site.holdings_endProcess launched result)
      · have none : w.site.endProcess l result = none := by rw [Site.endProcess, if_neg launched]
        exact .keeps (by rw [none]; rfl)
  | supervise =>
      cases h
      cases oldest : w.site.node.endings with
      | nil =>
          have idle : w.site.supervise = w.site := by rw [Site.supervise, oldest]
          exact .keeps (congrArg Site.holdings idle)
      | cons e rest => exact .settles oldest (Site.holdings_supervise oldest)
  | received disk =>
      cases h
      exact .keeps rfl

end LiveMigration.Node
