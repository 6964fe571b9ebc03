import LiveMigration.Proofs.Cadence.Numbers
import LiveMigration.Proofs.Cluster.AcknowledgedHandoff
import LiveMigration.Proofs.Node.Failover

/-!
The end of the sequence numbers. Three operations derive a new dump: a tick, a checkpoint, and the
handoff with its two last dumps. Whether they get a number depends on the last dump alone, and
after a restore that is the one that came with a handoff or was found on the disk. Its number is
never looked at when it comes in, however close to the last one it may be.
-/

namespace LiveMigration.Node

open Cadence

variable {σ : Type} {settings : Settings} {rig : Rig σ}

/-! ## Which events overflow -/

namespace Site

variable {s : Site σ}

theorem dumpTick_overflow_iff : (s.dumpTick settings rig).1 = .error .overflow ↔
    s.register.status = .running ∧ s.register.container.isSome = true ∧
      next? s.register.chain s.register.closed settings.frequency = none := by
  unfold dumpTick
  by_cases running : s.register.status = .running
  · rw [if_neg (not_not.2 running)]
    cases s.register.container with
    | none => simp [running]
    | some id =>
        cases next? s.register.chain s.register.closed settings.frequency with
        | none => simp [running]
        | some plan =>
            dsimp only
            split <;> simp
  · simp [running]

theorem checkpoint_overflow_iff : (s.checkpoint settings rig).1 = .error .overflow ↔
    s.register.status = .running ∧ s.register.container.isSome = true ∧
      (checkpointBase s.register.chain s.register.closed).checkpoint? = none := by
  unfold checkpoint
  by_cases running : s.register.status = .running
  · rw [if_neg (not_not.2 running)]
    cases s.register.container with
    | none => simp [running]
    | some id =>
        cases (checkpointBase s.register.chain s.register.closed).checkpoint? with
        | none => simp [running]
        | some d =>
            dsimp only
            split
            · simp
            · split <;> simp
  · simp [running]

/-- The two last dumps of a handoff have numbers. -/
def HasFinal (s : Site σ) : Prop :=
  ∃ pre full, finalPre? s.register.chain s.register.closed = some pre ∧
    pre.dump.nextFull? = some full

theorem takeFinalDumps_overflow {id : ContainerId} {s' : Site σ}
    (h : s.takeFinalDumps settings rig id = (.error .overflow, s')) : ¬ s.HasFinal := by
  rintro ⟨pre, full, planned, follows⟩
  unfold takeFinalDumps at h
  rw [planned] at h
  dsimp only at h
  split at h
  · cases h
  rw [follows] at h
  dsimp only at h
  split at h <;> cases h

theorem prepareHandoff_overflow {s' : Site σ}
    (h : s.prepareHandoff settings rig = (.error .overflow, s')) : ¬ s.HasFinal := by
  unfold prepareHandoff at h
  split at h
  · split at h
    · rename_i dumped
      cases h
      exact takeFinalDumps_overflow dumped
    · split at h
      · cases h
      · split at h <;> cases h
  · cases h
  · cases h

theorem enter_overflow {e : Status} {s' : Site σ} (h : s.enter settings rig e = (none, s')) :
    e = .migrating ∧ ¬ s.HasFinal := by
  unfold enter at h
  cases e with
  | migrating =>
      refine ⟨rfl, ?_⟩
      dsimp only at h
      split at h
      · cases h
      · cases h
      · rename_i prepared
        exact prepareHandoff_overflow prepared
  | joining =>
      dsimp only at h
      split at h
      · cases h
      · split at h <;> cases h
  | _ => cases h

theorem proceed_overflow {a : Activity} {s' : Site σ}
    (h : s.proceed settings rig a = (none, s')) :
    a = .entering .migrating ∧ ¬ s.HasFinal := by
  unfold proceed at h
  cases a with
  | entering e =>
      obtain ⟨rfl, short⟩ := enter_overflow h
      exact ⟨rfl, short⟩
  | standBy watching =>
      dsimp only at h
      split at h <;> cases h
  | handingOver t m =>
      dsimp only at h
      split at h <;> cases h
  | asking source m =>
      dsimp only at h
      split at h <;> cases h
  | _ => cases h

end Site

theorem tick_eq_none_iff {w : Working σ} : Event.tick.perform settings rig w = none ↔
    w.status = .running ∧ w.site.register.container.isSome = true ∧
      UInt64.size ≤ lastSequence w.chain w.closed + 1 := by
  have overflow : (w.site.dumpTick settings rig.recorded).1 = .error .overflow ↔ _ :=
    Site.dumpTick_overflow_iff
  rw [next?_eq_none_iff] at overflow
  rw [← overflow, Event.perform]
  split <;> rename_i h <;> rw [h] <;> simp

theorem command_eq_none_iff {w : Working σ} {c : Control.Command} :
    (Event.command c).perform settings rig w = none ↔
      (w.site.execute settings rig.recorded c).1 = .error .overflow := by
  rw [Event.perform]
  split <;> rename_i h <;> rw [h] <;> simp

theorem checkpoint_eq_none_iff {w : Working σ} :
    (Event.command .checkpoint).perform settings rig w = none ↔
      w.status = .running ∧ w.site.register.container.isSome = true ∧
        UInt64.size ≤ lastSequence w.chain w.closed + 1 := by
  have overflow : (w.site.checkpoint settings rig.recorded).1 = .error .overflow ↔ _ :=
    Site.checkpoint_overflow_iff
  rw [checkpoint?_eq_none_iff] at overflow
  rw [← overflow, command_eq_none_iff, Site.execute]
  cases asked : (w.site.checkpoint settings rig.recorded).1 <;> simp [asked, Except.map]

/-- There is no other way for an event to end the node. -/
theorem overflow_of_perform {w : Working σ} {e : Event} (h : e.perform settings rig w = none) :
    UInt64.size ≤ lastSequence w.chain w.closed + 1 ∨ ¬ w.site.HasFinal := by
  cases e with
  | tick => exact .inl (tick_eq_none_iff.1 h).2.2
  | command c =>
      cases c with
      | checkpoint => exact .inl (checkpoint_eq_none_iff.1 h).2.2
      | migrate id =>
          rw [command_eq_none_iff, Site.execute] at h
          cases asked : (w.site.requestMigration id).1 <;> simp [asked, Except.mapError] at h
  | proceed =>
      rw [Event.perform] at h
      split at h
      · cases h
      · rename_i stuck
        exact .inr (Site.proceed_overflow stuck).2
  | _ => cases h

/-! ## From a handoff or a recovery to the restore -/

/-- How far a node has come that has taken a chain over: after a handoff the loop may first have to
notice that the node stands by no longer. -/
inductive Takeover (chain : Chain) (w : Working σ) : Prop
  | unnoticed (here : w.activity = .entering .standBy ∨ ∃ watching, w.activity = .standBy watching)
      (status : w.status = .restoring) (dumps : w.chain.dumps = chain.dumps)
  | noticed (f : Failover chain w)

section

variable {w₀ w w' : Working σ} {ms : List (Moment σ)} {e : Event} {a : Answer} {chain : Chain}

theorem Takeover.rests {s : Site (Recorded σ)} (t : Takeover chain w)
    (dumps : s.register.chain.dumps = w.chain.dumps)
    (status : s.register.status = w.status ∨ w.status.moves s.register.status = true) :
    Takeover chain { w with site := s } := by
  cases t with
  | noticed f => exact .noticed (f.rests dumps status)
  | unnoticed here restoring same =>
      obtain kept | moved := status
      · exact .unnoticed here (kept.trans restoring) (dumps.trans same)
      · rw [restoring] at moved
        refine .noticed (.passed ⟨.inl (Status.isLate_of_restoring moved), ?_⟩)
        obtain here | ⟨_, here⟩ := here <;> rw [here] <;> simp

theorem Takeover.proceed {a : Activity} {s : Site (Recorded σ)} (t : Takeover chain w)
    (c : Coherent w) (h : Proceeds settings rig.recorded w.activity w.site a s) :
    Takeover chain ⟨a, s⟩ := by
  cases t with
  | noticed f => exact .noticed (f.proceed c h)
  | unnoticed here restoring same =>
      obtain ⟨activity, site⟩ := w
      dsimp only at h here
      obtain rfl | ⟨watching, rfl⟩ := here
      · cases h with
        | chores goes done =>
            have restoring := done.kept.status.trans restoring
            have same := done.kept.chain.trans same
            cases goes with
            | stand watching => exact .unnoticed (.inr ⟨watching, rfl⟩) restoring same
            | wait => exact .unnoticed (.inl rfl) restoring same
            | final final => cases final
      · cases h with
        | chores goes done =>
            have restoring := done.kept.status.trans restoring
            have same := done.kept.chain.trans same
            cases goes with
            | wait => exact .unnoticed (.inr ⟨watching, rfl⟩) restoring same
            | wakeUp => exact .noticed (.due rfl restoring same)

theorem Takeover.step (t : Takeover chain w) (c : Coherent w)
    (h : e.perform settings rig w = some (a, w'))
    (calm : Moment.taken? ⟨e, a, w, w'⟩ = none) : Takeover chain w' := by
  cases t with
  | noticed f => exact .noticed (f.step c h calm)
  | unnoticed here restoring same =>
      have t : Takeover chain w := .unnoticed here restoring same
      cases perform_cases h with
      | chores _ done => exact t.rests done.kept.chain (.inl done.kept.status)
      | ticks ticks => cases calm
      | eases _ eases =>
          have shifts : Shifts rig.recorded _ _ := eases.shifts
          exact t.rests (congrArg Chain.dumps shifts.chain) shifts.status
      | runs id bundle =>
          have shifts : Shifts rig.recorded _ _ := shifts_run id bundle w.site
          exact t.rests (congrArg Chain.dumps shifts.chain) shifts.status
      | received => exact t.rests rfl (.inl rfl)
      | accepts status =>
          rw [status] at restoring
          cases restoring
      | silence =>
          obtain unchanged | ⟨_, silent⟩ := onSilence_cases w.activity w.site
          · rw [unchanged]
            exact t
          · rw [silent, leave_of_ne (by rw [show w.site.register.status = _ from restoring]; nofun)]
            exact .noticed (.due rfl restoring same)
      | proceeds p => exact t.proceed c p

theorem Course.takeover (course : Course settings rig w₀ ms w) (c : Coherent w₀)
    (t : Takeover chain w₀) (calm : cadenceOf ms = []) : Takeover chain w := by
  suffices Coherent w ∧ Takeover chain w from this.2
  induction course with
  | start => exact ⟨c, t⟩
  | next _ h ih =>
      rw [cadenceOf_append, List.append_eq_nil_iff] at calm
      obtain ⟨c, t⟩ := ih calm.1
      exact ⟨c.step h, t.step c h (Option.toList_eq_nil_iff.1 calm.2)⟩

/-- The restore after a takeover is from the dump that the chain ends in. -/
theorem Takeover.restored {x : Moment σ} {d : Dump} (t : Takeover chain x.before)
    (reached : Reached settings rig x.before) (restores : x.restores)
    (performed : x.event.perform settings rig x.before = some (x.answer, x.after))
    (latest : chain.latest? = some d) : Restored settings rig d x.after := by
  cases t with
  | noticed f => exact f.restored reached restores performed latest
  | unnoticed here =>
      have entering := restores.1.2
      obtain here | ⟨_, here⟩ := here <;> rw [here] at entering <;> cases entering

theorem Takeover.of_ack {host : String} {m : Rpc.Migrate} (c : Coherent w)
    (ack : (Event.message host (.migrate m)).perform settings rig w = some (.reply .ack, w')) :
    Takeover (Chain.ofDumps m.dumps) w' := by
  have answered : some (Answer.reply (w.site.onMigrate settings m).1,
      { w with site := (w.site.onMigrate settings m).2 }) = some (.reply .ack, w') := ack
  obtain ⟨reply, rfl⟩ := Prod.mk.inj (Option.some.inj answered)
  obtain ⟨status, accepted⟩ := accepted_of_ack (Answer.reply.inj reply)
  have early := isBeforeRestore_of_standBy c status
  rw [accepted]
  cases here : w.activity with
  | deciding => exact .noticed (.due rfl rfl rfl)
  | standBy watching => exact .unnoticed (.inr ⟨watching, rfl⟩) rfl rfl
  | entering e =>
      rw [here] at early
      cases e with
      | standBy => exact .unnoticed (.inl rfl) rfl rfl
      | restoring => exact .noticed (.begun rfl rfl)
      | _ => cases early
  | _ =>
      rw [here] at early
      cases early

/-- A node has just taken a chain over, from a handoff that it acknowledged or from its disk; its
last dump is `top`. -/
inductive TakesOver (settings : Settings) (rig : Rig σ) (top : Dump) : Working σ → Prop
  | handoff {w w' : Working σ} {host : String} {m : Rpc.Migrate}
      (reached : Reached settings rig w)
      (ack : (Event.message host (.migrate m)).perform settings rig w = some (.reply .ack, w'))
      (last : m.dumps.getLast? = some top) : TakesOver settings rig top w'
  | recovery {r : Moment σ} {chain : Chain} (reached : Reached settings rig r.before)
      (performed : r.event.perform settings rig r.before = some (r.answer, r.after))
      (recovers : r.recovers chain)
      (scanned : Lineage.recover r.before.site.disk settings.dumpPath = .ok top) :
      TakesOver settings rig top r.after

theorem TakesOver.takeover {top : Dump} (taken : TakesOver settings rig top w) :
    Reached settings rig w ∧ ∃ chain latest, Takeover chain w ∧ chain.latest? = some latest ∧
      latest.sequence = top.sequence := by
  cases taken with
  | handoff reached ack last =>
      obtain ⟨latest, there, same⟩ := Chain.latest?_ofDumps last
      exact ⟨reached.next ack, _, latest, .of_ack reached.coherent ack, there, same.2⟩
  | recovery reached performed recovers scanned =>
      obtain ⟨d, found, latest⟩ := Site.latest?_of_recover (recover_of_recovers recovers performed)
      cases found.symm.trans scanned
      exact ⟨reached.next performed, _, _, .noticed (.found recovers.2.2), latest, rfl⟩

/-! ## After the restore -/

theorem container_of_perform (h : e.perform settings rig w = some (a, w'))
    (there : w.site.register.container.isSome = true) :
    w'.site.register.container.isSome = true := by
  cases e with
  | join source bundle =>
      cases h
      have same := congrArg Holdings.container (Site.holdings_join source bundle w.site)
      exact (congrArg Option.isSome same).trans there
  | _ => exact (retains_of_perform h (fun _ _ => nofun)).container there

theorem Restored.container {d : Dump} (restored : Restored settings rig d w) :
    w.site.register.container.isSome = true := by
  obtain ⟨before, _, entering, performed, leaving, _⟩ := restored
  have stepped := proceed_of_perform performed
  rw [entering, leaving, Site.proceed, Site.enter] at stepped
  unfold Site.restore at stepped
  dsimp only at stepped
  split at stepped
  · rename_i id bundle latest container _ _
    obtain ⟨_, same⟩ := Prod.mk.inj stepped
    rw [← same]
    exact congrArg Option.isSome container
  · cases stepped

theorem Course.container (course : Course settings rig w₀ ms w)
    (there : w₀.site.register.container.isSome = true) :
    w.site.register.container.isSome = true :=
  course.preserves (P := fun w => w.site.register.container.isSome = true) there
    fun there h => container_of_perform h there

/-- After the restore the numbers go on from the last dump of the chain that was taken over, one for
each dump of the cadence. A dump that would need a number beyond the last one ends the node, and
nothing else does. -/
theorem overflow_after_restore {top : Dump} {x : Moment σ} {mid back : List (Moment σ)}
    (positive : 1 ≤ settings.frequency.toNat) (taken : TakesOver settings rig top w₀)
    (course : Course settings rig w₀ (mid ++ x :: back) w) (calm : cadenceOf mid = [])
    (restores : x.restores) (early : ¬ Past w) :
    let next := top.sequence.toNat + (cadenceOf back).length + 1
    (w.status = .running →
      (Event.tick.perform settings rig w = none ↔ UInt64.size ≤ next) ∧
      ((Event.command .checkpoint).perform settings rig w = none ↔ UInt64.size ≤ next)) ∧
    (w.site.HasFinal ↔ next + 1 < UInt64.size) ∧
    (next + 1 < UInt64.size → ∀ e : Event, e.perform settings rig w ≠ none) := by
  intro next
  obtain ⟨reached, chain, latest, takeover, there, number⟩ := taken.takeover
  obtain ⟨between, performed⟩ := course.front rfl
  have after := course.back rfl
  have restored := (between.takeover reached.coherent takeover calm).restored
    (reached.along between) restores performed there
  have stands := (restored.keepsSchedule positive after).stands early
  rw [number] at stands
  have last : lastSequence w.chain w.closed + 1 = next := by rw [stands.lastSequence_eq]
  have final : w.site.HasFinal ↔ next + 1 < UInt64.size := stands.finalDumps_iff
  have container := after.container restored.container
  refine ⟨fun running => ⟨?_, ?_⟩, final, ?_⟩
  · rw [tick_eq_none_iff, last]
    exact ⟨fun h => h.2.2, fun large => ⟨running, container, large⟩⟩
  · rw [checkpoint_eq_none_iff, last]
    exact ⟨fun h => h.2.2, fun large => ⟨running, container, large⟩⟩
  · intro room e overflow
    obtain large | short := overflow_of_perform overflow
    · rw [last] at large
      omega
    · exact short (final.2 room)

/-- A node has restored the first full dump and has taken the pre-dump after it. -/
theorem overflow_after_restore_sample :
    ∃ mid x back w, Course .sample .sample sampleTakeover (mid ++ x :: back) w ∧
      cadenceOf mid = [] ∧ x.restores ∧ (cadenceOf back).length = 1 ∧ w.site.HasFinal ∧
      ∀ e : Event, e.perform .sample .sample w ≠ none := by
  obtain ⟨mid, x, back, w, course, calm, restores, one, deciding, running⟩ :
      ∃ mid x back w, Course .sample .sample sampleTakeover (mid ++ x :: back) w ∧
        cadenceOf mid = [] ∧ x.restores ∧ (cadenceOf back).length = 1 ∧
        w.activity = .deciding ∧ w.status = .running :=
    ⟨[_], _, [_, _], _, course_momentsFrom .sample .sample sampleTakeover
      [.proceed, .proceed, .proceed, .tick], rfl, ⟨⟨rfl, rfl⟩, rfl⟩, rfl, rfl, rfl⟩
  have ack : (Event.message "h" (.migrate sampleHandoff)).perform .sample .sample
      (.started sampleDisk ()) = some (.reply .ack, sampleTakeover) := rfl
  have taken : TakesOver .sample .sample ⟨.full, 1, 0⟩ sampleTakeover :=
    .handoff (reached_started .sample .sample sampleDisk ()) ack rfl
  have early : ¬ Past w := by simp [Past, deciding, running, Status.isOver]
  have numbers := overflow_after_restore (by decide) taken course calm restores early
  rw [one] at numbers
  exact ⟨mid, x, back, w, course, calm, restores, one, numbers.2.1.2 (by decide),
    numbers.2.2 (by decide)⟩

def lastNumber : Dump := ⟨.full, UInt64.ofNat (UInt64.size - 1), 0⟩

/-- A disk with the directory of the full dump that has the last number of all. -/
def sampleExhausted : Disk := .ofTree ⟨[([lastNumber.entryName], .directory)]⟩ []

def lastHandoff : Rpc.Migrate :=
  { sampleHandoff with
    dumps := [lastNumber]
    nonempty := by decide
    ascending := rfl
    named := by decide }

/-- A node that runs after a restore, and that neither the next tick nor the next checkpoint
survives; nor can it be migrated. -/
def Exhausted (w : Working Unit) : Prop :=
  w.status = .running ∧ Event.tick.perform .sample .sample w = none ∧
    (Event.command .checkpoint).perform .sample .sample w = none ∧ ¬ w.site.HasFinal

/-- A handoff is acknowledged and a recovery succeeds whose last dump has the last number of all. -/
theorem last_number_taken_over :
    (∃ w₀ mid x back w, (Event.message "h" (.migrate lastHandoff)).perform .sample .sample
        (.started sampleExhausted ()) = some (.reply .ack, w₀) ∧
      Course .sample .sample w₀ (mid ++ x :: back) w ∧ x.restores ∧ Exhausted w) ∧
    ∃ front r mid x back w, Course .sample .sample (.started sampleExhausted ())
        (front ++ r :: (mid ++ x :: back)) w ∧
      r.recovers (.ofDumps [lastNumber]) ∧ x.restores ∧ Exhausted w := by
  have none_final {w : Working Unit} (h : finalPre? w.chain w.closed = none) :
      ¬ w.site.HasFinal := by
    rintro ⟨_, _, planned, _⟩
    cases h.symm.trans planned
  constructor
  · let w₀ : Working Unit :=
      ⟨.deciding, acceptedSite lastHandoff (Working.started sampleExhausted ()).site⟩
    refine ⟨w₀, [_], _, [_], _, rfl, course_momentsFrom .sample .sample w₀
      [.proceed, .proceed, .proceed], ⟨⟨rfl, rfl⟩, rfl⟩, rfl, rfl, rfl, none_final rfl⟩
  · have course : Course .sample .sample (.started sampleExhausted ())
        (sampleFailover sampleExhausted) _ := course_momentsFrom ..
    obtain ⟨front, r, mid, x, back, split, recovers, restores⟩ :
        ∃ front r mid x back, sampleFailover sampleExhausted = front ++ r :: (mid ++ x :: back) ∧
          r.recovers (.ofDumps [lastNumber]) ∧ x.restores :=
      ⟨momentsFrom .sample .sample (.started sampleExhausted ()) sampleSilence, _, [_, _, _], _,
        [_], rfl, ⟨rfl, rfl, rfl⟩, ⟨⟨rfl, rfl⟩, rfl⟩⟩
    rw [split] at course
    exact ⟨front, r, mid, x, back, _, course, recovers, restores, rfl, rfl, rfl, none_final rfl⟩

end

end LiveMigration.Node
