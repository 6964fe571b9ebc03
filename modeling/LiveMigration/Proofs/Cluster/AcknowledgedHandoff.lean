import LiveMigration.Proofs.Cluster.Holding
import LiveMigration.Proofs.Node.CadenceSchedule
import LiveMigration.Proofs.Node.HandoffAgreement
import LiveMigration.Proofs.Node.Orders

/-!
What becomes of a handoff that a node has acknowledged. Until its loop comes to restore the
container, the node keeps what it was told, and the next process that it launches is that
container, restored from the last dump of the handoff; only a signal ends this. Two requests
of the operator that are meant for a node that stands by are an exception: one to run a
container is carried out, and one to join a source is turned down only after its bundle has
taken the place of the one that came with the handoff.
-/

namespace LiveMigration.Node

variable {σ : Type} {settings : Settings} {rig : Rig σ}

/-! ## Launches -/

def Deed.launch? : Deed → Option Engine.Launch
  | .launched l => some l
  | _ => none

/-- The processes that a node has launched, oldest first. -/
def Working.launches (w : Working σ) : List Engine.Launch := w.deeds.filterMap Deed.launch?

theorem Quiet.launches_eq {w w' : Working σ} (h : Quiet w.deeds w'.deeds) :
    w'.launches = w.launches := by
  obtain ⟨more, grown, quiet⟩ := h
  have none : more.filterMap Deed.launch? = [] := by
    refine List.filterMap_eq_nil_iff.2 ?_
    rintro (_ | l | _) mem
    · rfl
    · exact absurd mem (quiet l)
    · rfl
  rw [Working.launches, grown, List.filterMap_append, none, List.append_nil]
  rfl

theorem launches_prefix {w w' : Working σ} {e : Event} {a : Answer}
    (h : e.perform settings rig w = some (a, w')) : w.launches <+: w'.launches := by
  have grown : w.deeds <+: w'.deeds := by
    cases perform_cases h with
    | chores _ done => exact done.deeds_prefix
    | ticks ticks => exact ticks.quiet.grows
    | eases _ eases => exact (Quiet.of_eq (congrArg Recorded.deeds eases.env)).grows
    | runs id bundle => exact Rests.deeds_prefix (shifts_run id bundle w.site).toRests
    | received | accepts => exact List.prefix_rfl
    | silence =>
        obtain same | ⟨_, silent⟩ := onSilence_cases w.activity w.site
        · exact same ▸ List.prefix_rfl
        · rw [silent]
          exact Rests.deeds_prefix (rests_leave rig.recorded _ _ w.site)
    | proceeds p =>
        obtain ⟨activity, site⟩ := w
        dsimp only at p
        cases p with
        | look | adopts => exact List.prefix_rfl
        | chores _ done => exact done.deeds_prefix
        | handsOver hands => exact hands.quiet.1.grows
        | fallsShort short => exact short.quiet.grows
        | restores => exact List.prefix_append _ _
        | leaves e n => exact Rests.deeds_prefix (rests_leave rig.recorded e n site)
  obtain ⟨more, grown⟩ := grown
  exact ⟨more.filterMap Deed.launch?, by
    rw [Working.launches, Working.launches, ← grown, List.filterMap_append]⟩

/-! ## Until the container is restored -/

/-- What a node launches for a handoff whose last dump is `d`. -/
def restoreOf (settings : Settings) (m : Rpc.Migrate) (d : Dump) : Engine.Launch :=
  .restore m.container (d.pathIn settings.dumpPath) m.bundle

/-- Whether the loop may be here between the handoff and the restore. -/
def Activity.isBeforeRestore : Activity → Bool
  | .deciding | .entering .standBy | .entering .restoring | .standBy _ => true
  | _ => false

/-- The container that a node is to look after, and its bundle. -/
def Site.assignment (s : Site σ) : Option ContainerId × Option Path :=
  (s.register.container, s.register.bundle)

/-- A handoff was acknowledged and is still to be carried out. -/
structure Pending (m : Rpc.Migrate) (d : Dump) (w : Working σ) : Prop where
  activity : w.activity.isBeforeRestore = true
  status : w.status = .restoring
  assignment : w.site.assignment = (some m.container, some m.bundle)
  latest : w.chain.latest?.map Dump.name = some d.name

/-- The operator asks for something that a node should do only while it stands by. -/
def Event.meddles (m : Rpc.Migrate) : Event → Bool
  | .run _ _ => true
  | .join _ bundle => bundle != m.bundle
  | _ => false

/-- The site went on, and what a restore is made from is as before. -/
structure Upholds (s s' : Site (Recorded σ)) : Prop where
  status : s'.register.status = s.register.status
  assignment : s'.assignment = s.assignment
  dumps : s'.register.chain.dumps = s.register.chain.dumps
  quiet : Quiet s.env.deeds s'.env.deeds

theorem Upholds.refl (s : Site (Recorded σ)) : Upholds s s := ⟨rfl, rfl, rfl, .refl _⟩

theorem Chores.upholds {s s' : Site (Recorded σ)} (h : Chores settings rig.recorded s s')
    (assignment : s'.assignment = s.assignment) : Upholds s s' :=
  ⟨h.kept.status, assignment, h.kept.chain, h.quiet⟩

theorem Upholds.pending {w : Working σ} {s : Site (Recorded σ)} {m : Rpc.Migrate} {d : Dump}
    (h : Upholds w.site s) (p : Pending m d w) : Pending m d { w with site := s } := by
  refine ⟨p.activity, h.status.trans p.status, h.assignment.trans p.assignment, ?_⟩
  rw [Working.chain, Chain.latest?_eq, h.dumps, ← Chain.latest?_eq]
  exact p.latest

/-! ### Requests and timers -/

theorem assignment_of_holdings {s s' : Site σ} {h : Holdings} (same : s'.holdings = h)
    (unchanged : (h.container, h.bundle) = s.assignment) : s'.assignment = s.assignment := by
  subst same
  exact unchanged

theorem upholds_drop (silent : List Target) (s : Site (Recorded σ)) :
    Upholds s (s.setRegister (Site.dropTargets silent s.register).2) := by
  obtain ⟨ts, ps, dropped⟩ := Site.dropTargets_eq silent s.register
  rw [dropped]
  exact ⟨rfl, rfl, rfl, .refl _⟩

theorem upholds_handle (host : String) (x : Rpc.Message) {s : Site (Recorded σ)}
    (status : s.register.status = .restoring) :
    Upholds s (s.handle settings rig.recorded host x).2 := by
  cases x with
  | join m =>
      have done : Chores settings rig.recorded _ _ := chores_onJoin host m s
      cases container : s.register.container with
      | none =>
          have refused := Site.onJoin_refused rig.recorded container host m
          exact done.upholds (congrArg Site.assignment refused)
      | some id =>
          exact done.upholds (assignment_of_holdings (Site.holdings_onJoin container host m) rfl)
  | joinAck m =>
      have done : Chores settings rig.recorded _ _ := chores_onJoinAck m s
      exact done.upholds (assignment_of_holdings (Site.holdings_onJoinAck m s) rfl)
  | ping => exact ⟨rfl, rfl, rfl, .refl _⟩
  | migrate m =>
      obtain same | ⟨_, standing, _⟩ := onMigrate_cases settings m s
      · rw [Site.handle, same]
        exact .refl s
      · rw [status] at standing
        cases standing

theorem changeStatus_refused {s : Site σ} {target : Status}
    (status : s.register.status = .restoring)
    (refused : Status.restoring.canChange target = false) :
    s.changeStatus target = (.error (.illegal .restoring target), s) := by
  have check : s.register.status.check target = .error (.illegal .restoring target) := by
    rw [status, Status.check, if_neg nofun, if_neg (by rw [refused]; exact nofun)]
  rw [Site.changeStatus, Register.changeStatus, check]
  rfl

theorem execute_refused (c : Control.Command) {s : Site σ}
    (status : s.register.status = .restoring) : (s.execute settings rig c).2 = s := by
  cases c with
  | checkpoint =>
      have refused : (s.checkpoint settings rig).2 = s := by
        rw [Site.checkpoint, if_pos (by rw [status]; exact nofun)]
      exact refused
  | migrate id =>
      have refused : (s.requestMigration id).2 = s := by
        unfold Site.requestMigration
        rw [changeStatus_refused status rfl]
        split
        · rfl
        split
        · rfl
        split <;> rfl
      exact refused

theorem upholds_join {source : String} {bundle : Path} {s : Site (Recorded σ)}
    (status : s.register.status = .restoring) (same : s.register.bundle = some bundle) :
    Upholds s (s.join source bundle).2 := by
  let noted := s.modify fun r => { r with source := some source, bundle := some bundle }
  have refused : noted.changeStatus .joining = (.error (.illegal .restoring .joining), noted) :=
    changeStatus_refused status rfl
  have left : (s.join source bundle).2 = noted := by
    simp only [noted] at refused
    rw [Site.join, refused]
  rw [left]
  exact ⟨rfl, congrArg (s.register.container, ·) same.symm, rfl, .refl _⟩

theorem recordEnding_idle {e : Ending} {r : Register} (status : r.status = .restoring) :
    ∃ live, Site.recordEnding e r = { r with live } := by
  have busy : r.status ≠ .running := by
    rw [status]
    exact nofun
  unfold Site.recordEnding
  by_cases own : r.container = some e.launch.container
  · refine ⟨false, ?_⟩
    rw [if_pos own]
    cases e.next? with
    | none => rfl
    | some next => exact if_neg busy
  · refine ⟨r.live, ?_⟩
    rw [if_neg own]
    cases e.next? with
    | none => rfl
    | some next => exact if_neg busy

theorem upholds_supervise {s : Site (Recorded σ)} (status : s.register.status = .restoring) :
    Upholds s s.supervise := by
  unfold Site.supervise
  split
  · exact .refl s
  · rename_i e rest _
    obtain ⟨live, idle⟩ := recordEnding_idle (e := e) status
    rw [idle]
    exact ⟨rfl, rfl, rfl, .refl _⟩

theorem upholds_endProcess (l : Engine.Launch) (result : Except EngineError Exit)
    (s : Site (Recorded σ)) : Upholds s ((s.endProcess l result).getD s) := by
  unfold Site.endProcess
  split
  · exact ⟨rfl, rfl, rfl, .refl _⟩
  · exact .refl s

theorem Pending.silence {w : Working σ} {m : Rpc.Migrate} {d : Dump} (p : Pending m d w) :
    Pending m d ⟨(w.site.onSilence w.activity).1, (w.site.onSilence w.activity).2⟩ := by
  have restoring : w.site.register.status = .restoring := p.status
  obtain same | ⟨_, silent⟩ := onSilence_cases w.activity w.site
  · rw [same]
    exact p
  · rw [silent, leave_of_ne (by rw [restoring]; exact nofun)]
    exact ⟨rfl, p.status, p.assignment, p.latest⟩

theorem status_onSignal {s : Site σ} (status : s.register.status = .restoring) :
    s.onSignal.register.status = .terminated ∧ s.onSignal.env = s.env := by
  refine ⟨?_, env_changeStatus s .terminated⟩
  rw [Site.onSignal, Site.changeStatus, Register.changeStatus, status]
  rfl

/-! ### The loop -/

/-- How many steps the loop takes to restore the container. -/
def Activity.stepsLeft : Activity → Nat
  | .entering .standBy => 4
  | .standBy _ => 3
  | .deciding => 2
  | _ => 1

theorem Activity.stepsLeft_pos (a : Activity) : 0 < a.stepsLeft := by
  unfold Activity.stepsLeft
  split <;> decide

theorem Activity.stepsLeft_le (a : Activity) : a.stepsLeft ≤ 4 := by
  unfold Activity.stepsLeft
  split <;> decide

theorem restore_pending {w : Working σ} {m : Rpc.Migrate} {d : Dump} (p : Pending m d w) :
    w.site.restore settings rig.recorded =
      (.running, restoredSite rig.recorded (restoreOf settings m d) w.site) := by
  obtain ⟨latest, hlatest, name⟩ := Option.map_eq_some_iff.1 p.latest
  obtain ⟨container, bundle⟩ := Prod.mk.inj p.assignment
  have image : latest.pathIn settings.dumpPath = d.pathIn settings.dumpPath := by
    rw [Dump.pathIn, name, Dump.pathIn]
  unfold Site.restore
  rw [container, bundle, show w.site.register.chain.latest? = _ from hlatest]
  dsimp only
  rw [image]
  rfl

/-- The loop comes closer to the restore, or it restores the container. -/
theorem Pending.proceed (settings : Settings) (rig : Rig σ) {w : Working σ} {m : Rpc.Migrate}
    {d : Dump} (p : Pending m d w) :
    ∃ w', Event.proceed.perform settings rig w = some (.nothing, w') ∧
      (Pending m d w' ∧ w'.launches = w.launches ∧
          w'.activity.stepsLeft < w.activity.stepsLeft ∨
        w'.launches = w.launches ++ [restoreOf settings m d]) := by
  obtain ⟨activity, site⟩ := w
  have status : site.register.status = .restoring := p.status
  have early := p.activity
  unfold Event.perform Site.proceed
  cases activity with
  | deciding =>
      dsimp only
      rw [status]
      exact ⟨_, rfl, .inl ⟨⟨rfl, p.status, p.assignment, p.latest⟩, rfl, Nat.lt_succ_self 1⟩⟩
  | standBy watching =>
      have awake : site.isWaiting (.standBy watching) = false := by
        rw [Site.isWaiting, status]
        rfl
      dsimp only
      rw [awake]
      exact ⟨_, rfl, .inl ⟨⟨rfl, p.status, p.assignment, p.latest⟩, rfl, Nat.lt_succ_self 2⟩⟩
  | entering e =>
      cases e with
      | standBy =>
          exact ⟨_, rfl, .inl ⟨⟨rfl, p.status, p.assignment, p.latest⟩, rfl, Nat.lt_succ_self 3⟩⟩
      | restoring =>
          dsimp only [Site.enter]
          rw [restore_pending p]
          refine ⟨_, rfl, .inr ?_⟩
          exact List.filterMap_append
      | _ => cases early
  | _ => cases early

/-- Where the loop gets in some steps if nothing else happens. -/
def Working.onward (settings : Settings) (rig : Rig σ) : Nat → Working σ → Option (Working σ)
  | 0, w => some w
  | n + 1, w => (Event.proceed.perform settings rig w).bind fun r => r.2.onward settings rig n

theorem Pending.restores (settings : Settings) (rig : Rig σ) {w : Working σ} {m : Rpc.Migrate}
    {d : Dump} (p : Pending m d w) :
    ∃ n ≤ w.activity.stepsLeft, ∃ w', w.onward settings rig n = some w' ∧
      w'.launches = w.launches ++ [restoreOf settings m d] := by
  induction hn : w.activity.stepsLeft using Nat.strongRecOn generalizing w with
  | ind k ih =>
      obtain ⟨w₁, step, ⟨p₁, same, closer⟩ | launched⟩ := p.proceed settings rig
      · obtain ⟨n, le, w', onward, launched⟩ := ih _ (hn ▸ closer) p₁ rfl
        refine ⟨n + 1, by omega, w', ?_, same ▸ launched⟩
        rw [Working.onward, step]
        exact onward
      · refine ⟨1, ?_, w₁, ?_, launched⟩
        · exact hn ▸ w.activity.stepsLeft_pos
        · rw [Working.onward, step]
          rfl

/-! ## What becomes of it -/

theorem Pending.step {w w' : Working σ} {m : Rpc.Migrate} {d : Dump} {e : Event} {a : Answer}
    (p : Pending m d w) (h : e.perform settings rig w = some (a, w'))
    (quiet : e.meddles m = false) :
    w'.launches = w.launches ∧ (Pending m d w' ∨ w'.status = .terminated) ∨
      w'.launches = w.launches ++ [restoreOf settings m d] := by
  have restoring : w.site.register.status = .restoring := p.status
  have upheld {s : Site (Recorded σ)} (h : Upholds w.site s) :
      (Working.mk w.activity s).launches = w.launches ∧
        (Pending m d ⟨w.activity, s⟩ ∨ (Working.mk w.activity s).status = .terminated) :=
    ⟨Quiet.launches_eq h.quiet, .inl (h.pending p)⟩
  cases e with
  | proceed =>
      obtain ⟨w₁, step, goes⟩ := p.proceed settings rig
      cases h.symm.trans step
      exact goes.imp (fun g => ⟨g.2.1, .inl g.1⟩) id
  | silence =>
      cases h
      refine .inl ⟨Quiet.launches_eq (.of_eq ?_), .inl p.silence⟩
      exact congrArg Recorded.deeds (env_onSilence w.activity w.site)
  | tick =>
      obtain ⟨_, _, ticked, -, rfl⟩ := dumpTick_of_perform h
      rw [Site.dumpTick, if_pos (by rw [restoring]; exact nofun)] at ticked
      obtain ⟨-, rfl⟩ := Prod.mk.inj ticked
      exact .inl (upheld (.refl _))
  | pingRound =>
      have done : Chores settings rig.recorded _ _ := chores_pingTargets w.site
      cases h
      have kept := assignment_of_holdings
        (Site.holdings_pingTargets settings rig.recorded w.site) rfl
      exact .inl (upheld (done.upholds kept))
  | drop silent =>
      cases h
      exact .inl (upheld (upholds_drop silent w.site))
  | message host x =>
      cases h
      exact .inl (upheld (upholds_handle host x restoring))
  | command c =>
      have refused : (w.site.execute settings rig.recorded c).2 = w.site :=
        execute_refused c restoring
      obtain ⟨_, s, executed, -, rfl⟩ := execute_of_perform h
      obtain rfl : s = w.site := by rw [← refused, executed]
      exact .inl (upheld (.refl _))
  | run id bundle => cases quiet
  | join source bundle =>
      cases h
      have same : bundle = m.bundle := by simpa [Event.meddles] using quiet
      refine .inl (upheld (upholds_join restoring ?_))
      rw [same]
      exact (Prod.mk.inj p.assignment).2
  | signal =>
      obtain ⟨terminated, env⟩ := status_onSignal restoring
      cases h
      exact .inl ⟨Quiet.launches_eq (.of_eq (congrArg Recorded.deeds env)), .inr terminated⟩
  | processEnd l result =>
      cases h
      exact .inl (upheld (upholds_endProcess l result w.site))
  | supervise =>
      cases h
      exact .inl (upheld (upholds_supervise restoring))
  | received disk =>
      cases h
      exact .inl (upheld ⟨rfl, rfl, rfl, .refl _⟩)

theorem isBeforeRestore_of_standBy {w : Working σ} (c : Coherent w) (h : w.status = .standBy) :
    w.activity.isBeforeRestore = true := by
  obtain here | here | ⟨_, here⟩ := c.at_standBy h <;> rw [here] <;> rfl

theorem accepted_of_ack {s : Site σ} {m : Rpc.Migrate}
    (ack : (s.onMigrate settings m).1 = .ack) :
    s.register.status = .standBy ∧ (s.onMigrate settings m).2 = acceptedSite m s := by
  obtain same | ⟨_, status, accepted, _⟩ := onMigrate_cases settings m s
  · unfold Site.onMigrate at ack same
    split at ack
    · cases ack
    rename_i standing
    rw [if_neg standing] at same
    split at ack <;> rename_i missing <;> rw [missing] at same
    · cases ack
    dsimp only at ack same
    split at ack
    · rename_i changed
      rw [changed] at same
      have standing : s.register.status = .standBy := not_not.1 standing
      rw [Site.changeStatus, Register.changeStatus, Site.register_modify] at changed
      dsimp only at changed
      rw [standing] at changed
      cases changed
      have restoring := congrArg (fun s => s.register.status) same
      rw [standing] at restoring
      cases restoring
    · cases ack
  · exact ⟨status, accepted⟩

/-- An acknowledged handoff is still to be carried out. -/
theorem Pending.of_ack {w w' : Working σ} {host : String} {m : Rpc.Migrate} {d : Dump}
    (c : Coherent w)
    (ack : (Event.message host (.migrate m)).perform settings rig w = some (.reply .ack, w'))
    (last : m.dumps.getLast? = some d) : Pending m d w' ∧ w'.launches = w.launches := by
  have answered : some (Answer.reply (w.site.onMigrate settings m).1,
      { w with site := (w.site.onMigrate settings m).2 }) = some (.reply .ack, w') := ack
  obtain ⟨reply, rfl⟩ := Prod.mk.inj (Option.some.inj answered)
  obtain ⟨status, accepted⟩ := accepted_of_ack (Answer.reply.inj reply)
  have early : w.activity.isBeforeRestore = true := isBeforeRestore_of_standBy c status
  rw [accepted]
  exact ⟨⟨early, rfl, rfl, Chain.name_latest?_ofDumps last⟩, rfl⟩

theorem le_getLast {ds : List Dump} {d : Dump} (h : Rpc.ascending ds = true)
    (last : ds.getLast? = some d) : d ∈ ds ∧ ∀ x ∈ ds, x.sequence ≤ d.sequence := by
  obtain ⟨front, rfl⟩ := List.getLast?_eq_some_iff.1 last
  refine ⟨List.mem_append_right _ (List.mem_singleton_self d), ?_⟩
  intro x mem
  have sorted := List.pairwise_append.1 (Rpc.ascending_iff.1 h)
  rcases List.mem_append.1 mem with mem | mem
  · exact UInt64.le_of_lt (sorted.2.2 x mem d (List.mem_singleton_self d))
  · rw [List.mem_singleton.1 mem]
    exact UInt64.le_refl _

/-- A node that has acknowledged a handoff restores its container next, from the last dump of
the handoff, unless it is told to terminate before. -/
theorem acknowledged_handoff {w₀ w₁ w : Working σ} {host : String} {m : Rpc.Migrate}
    {ms : List (Moment σ)} (reached : Reached settings rig w₀)
    (ack : (Event.message host (.migrate m)).perform settings rig w₀ = some (.reply .ack, w₁))
    (course : Course settings rig w₁ ms w)
    (quiet : ∀ x ∈ ms, x.before.status = .restoring → x.event.meddles m = false) :
    ∃ d ∈ m.dumps, (∀ x ∈ m.dumps, x.sequence ≤ d.sequence) ∧
      ((∃ more, w.launches = w₀.launches ++ restoreOf settings m d :: more) ∨
        (w.launches = w₀.launches ∧ w.status = .restoring ∧ ∃ n ≤ 4, ∃ w',
          w.onward settings rig n = some w' ∧
            w'.launches = w₀.launches ++ [restoreOf settings m d]) ∨
        ∃ x ∈ ms, x.after.status = .terminated ∧ x.after.launches = w₀.launches) := by
  obtain ⟨d, last⟩ : ∃ d, m.dumps.getLast? = some d :=
    ⟨_, List.getLast?_eq_some_getLast m.nonempty⟩
  obtain ⟨mem, highest⟩ := le_getLast m.ascending last
  obtain ⟨pending, kept⟩ := Pending.of_ack reached.coherent ack last
  have becomes : (∃ more, w.launches = w₀.launches ++ restoreOf settings m d :: more) ∨
      (w.launches = w₀.launches ∧ Pending m d w) ∨
      ∃ x ∈ ms, x.after.status = .terminated ∧ x.after.launches = w₀.launches := by
    induction course with
    | start => exact .inr (.inl ⟨kept, pending⟩)
    | @next ms w w' e a _ h ih =>
        obtain ⟨more, restored⟩ | ⟨same, pending⟩ | ⟨x, mem, ended⟩ :=
          ih fun x mem => quiet x (List.mem_append_left _ mem)
        · obtain ⟨later, grown⟩ := launches_prefix h
          refine .inl ⟨more ++ later, ?_⟩
          rw [← grown, restored, List.append_assoc, List.cons_append]
        · have unmeddled := quiet ⟨e, a, w, w'⟩ (by simp) pending.status
          obtain ⟨same', pending | terminated⟩ | restored := pending.step h unmeddled
          · exact .inr (.inl ⟨same'.trans same, pending⟩)
          · exact .inr (.inr ⟨⟨e, a, w, w'⟩, by simp, terminated, same'.trans same⟩)
          · exact .inl ⟨[], same ▸ restored⟩
        · exact .inr (.inr ⟨x, List.mem_append_left _ mem, ended⟩)
  refine ⟨d, mem, highest, becomes.imp id (.imp ?_ id)⟩
  rintro ⟨same, pending⟩
  obtain ⟨n, le, w', onward, restored⟩ := pending.restores settings rig
  exact ⟨same, pending.status, n, le.trans w.activity.stepsLeft_le, w', onward, same ▸ restored⟩

def sampleTakeover : Working Unit := sampleAfter [.message "h" (.migrate sampleHandoff)]

/-- A node that stands by takes a container over and restores it in its next two steps. -/
theorem acknowledged_handoff_sample :
    Reached .sample .sample (.started sampleDisk ()) ∧
      (Event.message "h" (.migrate sampleHandoff)).perform .sample .sample
        (.started sampleDisk ()) = some (.reply .ack, sampleTakeover) ∧
      ∃ ms w, Course .sample .sample sampleTakeover ms w ∧
        (∀ x ∈ ms, x.before.status = .restoring → x.event.meddles sampleHandoff = false) ∧
        ∃ d ∈ sampleHandoff.dumps, (∀ x ∈ sampleHandoff.dumps, x.sequence ≤ d.sequence) ∧
          ∃ more, w.launches = restoreOf .sample sampleHandoff d :: more := by
  let w : Working Unit :=
    sampleAfter [.message "h" (.migrate sampleHandoff), .proceed, .proceed]
  have reached : Reached .sample .sample (.started sampleDisk ()) := ⟨_, _, _, .start⟩
  have course : Course .sample .sample sampleTakeover _ w :=
    .next (e := .proceed) (.next (e := .proceed) .start rfl) rfl
  have ack : (Event.message "h" (.migrate sampleHandoff)).perform .sample .sample
      (.started sampleDisk ()) = some (.reply .ack, sampleTakeover) := rfl
  refine ⟨reached, ack, _, w, course, by simp [Event.meddles], ?_⟩
  have launched : w.launches.length = 1 := rfl
  obtain ⟨d, mem, highest, restored | ⟨waiting, _⟩ | ⟨x, hx, terminated, _⟩⟩ :=
    acknowledged_handoff reached ack course (by simp [Event.meddles])
  · exact ⟨d, mem, highest, restored⟩
  · rw [waiting] at launched
    cases launched
  · simp only [List.nil_append, List.cons_append, List.mem_cons, List.not_mem_nil,
      or_false] at hx
    obtain rfl | rfl := hx <;> cases terminated

/-- Between the acknowledgement and the restore a node runs another container if it is told
to, and a request to join that it turns down leaves it with another bundle. -/
theorem handoff_displaced :
    (∃ ms w, Course .sample .sample sampleTakeover ms w ∧
      (∀ x ∈ ms, x.after.status ≠ .terminated) ∧
        w.launches = [.run ⟨"other", by decide⟩ (.ofText "/other")]) ∧
      ∃ ms w, Course .sample .sample sampleTakeover ms w ∧
        (∀ x ∈ ms, x.after.status ≠ .terminated) ∧
          w.launches = [.restore sampleContainer (.ofText "/d1") (.ofText "/other")] := by
  let other : Path := .ofText "/other"
  let runs : Event := .run ⟨"other", by decide⟩ other
  let joins : Event := .join "h" other
  let handoff : Event := .message "h" (.migrate sampleHandoff)
  have ran : Course .sample .sample sampleTakeover _ (sampleAfter [handoff, runs]) :=
    .next (e := runs) .start rfl
  have joined : Course .sample .sample sampleTakeover _
      (sampleAfter [handoff, joins, .proceed, .proceed]) :=
    .next (e := .proceed) (.next (e := .proceed) (.next (e := joins) .start rfl) rfl) rfl
  refine ⟨⟨_, _, ran, ?_, rfl⟩, ⟨_, _, joined, ?_, rfl⟩⟩
  · simp only [List.nil_append, List.mem_singleton, forall_eq]
    exact nofun
  · simp only [List.nil_append, List.cons_append, List.mem_cons, List.not_mem_nil, or_false,
      forall_eq_or_imp, forall_eq]
    exact ⟨nofun, nofun, nofun⟩

end LiveMigration.Node
