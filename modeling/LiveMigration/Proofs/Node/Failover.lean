import LiveMigration.Proofs.Lineage.Recovered
import LiveMigration.Proofs.Node.CadenceSchedule
import LiveMigration.Proofs.Node.HandlerRuns

/-!
A failover. A node that has found a chain on its disk makes it its own and restores the container
from the last dump of it, whatever others ask of the node meanwhile. The cadence goes on after that
dump, which is the last full one on the disk; the pre-dumps there play no part.
-/

namespace LiveMigration

/-- A container that is restored may be given a task or be terminated. -/
theorem Status.isLate_of_restoring {s : Status} (h : restoring.moves s = true) :
    s.isLate = true := by
  revert s
  decide

/-- What else a node may be while its loop acts on the recovery or on the restore. -/
theorem Status.isLate_of_drifts {e s : Status} (early : e = .recovery ∨ e = .restoring)
    (h : e.drifts s = true) (other : s ≠ e) : s.isLate = true := by
  revert e s
  decide

/-- A directory of the dump root has the name of a dump. -/
def Lineage.Carries (disk : Disk) (root : Path) (d : Dump) : Prop :=
  ∃ entries, disk.list root = .ok entries ∧ (d.entryName, Entry.directory) ∈ entries

/-- The pre-dump right after a dump has a directory in the dump root. -/
def Lineage.Followed (disk : Disk) (root : Path) (d : Dump) : Prop :=
  ∃ y : Dump, y.kind = .pre ∧ y.sequence.toNat = d.sequence.toNat + 1 ∧ Carries disk root y

theorem Lineage.followed_iff {disk : Disk} {root : Path} {d x : Dump} (pre : x.kind = .pre)
    (next : x.sequence.toNat = d.sequence.toNat + 1) :
    Followed disk root d ↔ Carries disk root x := by
  refine ⟨?_, fun there => ⟨x, pre, next, there⟩⟩
  rintro ⟨y, pre', next', entries, listed, mem⟩
  have same : y.Same x := ⟨pre'.trans pre.symm, UInt64.toNat_inj.1 (next'.trans next.symm)⟩
  rw [Dump.entryName_inj.2 same] at mem
  exact ⟨entries, listed, mem⟩

namespace Node

open Cadence

variable {σ : Type} {settings : Settings} {rig : Rig σ} {w₀ w w' : Working σ}
  {ms : List (Moment σ)} {e : Event} {a : Answer} {chain : Chain}

/-- The loop finds a chain on the disk. -/
def Moment.recovers (x : Moment σ) (chain : Chain) : Prop :=
  x.event = .proceed ∧ x.before.activity = .recovering ∧
    x.after.activity = .recovered (.ok chain)

/-- The loop restores the container. -/
def Moment.restores (x : Moment σ) : Prop :=
  x.starts .restoring ∧ x.after.activity = .leaving .restoring .running

theorem Activity.known_of_handling {a : Activity} {e : Status} (h : a.handling? = some e) :
    a.known? = some e := by
  cases a <;> first | exact h | cases h

theorem isLate_of_restored {n : Status} (h : mayEnd .restoring n = true) : n.isLate = true := by
  revert n
  decide

/-! ## Beyond the restore -/

/-- A node whose loop has done with the restore, or that got another task or is to terminate. -/
structure Beyond (w : Working σ) : Prop where
  late : w.status.isLate = true ∨ w.activity.handling? = some .restoring
  other : w.activity ≠ .entering .restoring

theorem Beyond.isLate (b : Beyond w) (h : w.activity.handling? ≠ some .restoring) :
    w.status.isLate = true :=
  b.late.resolve_right h

theorem Beyond.rests {s : Site (Recorded σ)} (b : Beyond w)
    (status : s.register.status = w.status ∨ w.status.moves s.register.status = true) :
    Beyond { w with site := s } := by
  refine ⟨?_, b.other⟩
  obtain kept | moved := status
  · exact b.late.imp_left fun late => (congrArg Status.isLate kept).trans late
  · exact b.late.imp_left fun late => Status.isLate_moves late moved

/-- Whatever a handler ends with, the node gets no nearer to a restore. -/
theorem Beyond.leaves {entered next : Status} {s : Site (Recorded σ)}
    (b : Beyond ⟨.leaving entered next, s⟩) (c : Coherent ⟨.leaving entered next, s⟩) :
    (s.leave entered next).register.status.isLate = true := by
  have ends := c.ends entered next rfl
  by_cases status : s.register.status = entered
  · rw [status_leave status (allowed_of_mayEnd ends)]
    obtain late | handling := b.late
    · exact isLate_of_mayEnd ends (status ▸ late)
    · obtain rfl : entered = .restoring := Option.some.inj handling
      exact isLate_of_restored ends
  · rw [leave_of_ne status]
    obtain late | handling := b.late
    · exact late
    · obtain rfl : entered = .restoring := Option.some.inj handling
      exact Status.isLate_of_drifts (.inr rfl) (c.drifts rfl) status

theorem Beyond.proceed {a : Activity} {s : Site (Recorded σ)} (b : Beyond w) (c : Coherent w)
    (h : Proceeds settings rig.recorded w.activity w.site a s) : Beyond ⟨a, s⟩ := by
  obtain ⟨activity, site⟩ := w
  dsimp only at h
  cases h with
  | look =>
      have late := b.isLate (by simp [Activity.handling?, Activity.known?])
      refine ⟨.inl late, fun restoring => ?_⟩
      rw [Working.status, Activity.entering.inj restoring] at late
      cases late
  | chores goes done =>
      refine ⟨?_, ?_⟩
      · rw [Working.status, done.kept.status]
        refine b.late.imp_right fun handling => ?_
        cases goes <;> first | exact handling | cases handling
      · rintro rfl
        cases goes
        exact b.other rfl
  | handsOver hands =>
      have late := b.isLate (by simp [Activity.handling?])
      exact ⟨.inl ((congrArg Status.isLate hands.status_eq).trans late), by simp⟩
  | fallsShort short =>
      have late := b.isLate (by simp [Activity.handling?])
      exact ⟨.inl ((congrArg Status.isLate short.status_eq).trans late), by simp⟩
  | restores => exact absurd rfl b.other
  | adopts => exact ⟨.inl (b.isLate (by simp [Activity.handling?, Activity.known?])), by simp⟩
  | leaves => exact ⟨.inl (b.leaves c), by simp⟩

/-! ## From the recovery to the restore -/

/-- How far a node has come that has found a chain: it makes the chain its own, leaves the status
of the recovery for that of the restore and begins its handler. -/
inductive Failover (chain : Chain) (w : Working σ) : Prop
  | found (here : w.activity = .recovered (.ok chain))
  | adopted (here : w.activity = .leaving .recovery .restoring)
      (dumps : w.chain.dumps = chain.dumps)
  | due (here : w.activity = .deciding) (status : w.status = .restoring)
      (dumps : w.chain.dumps = chain.dumps)
  | begun (here : w.activity = .entering .restoring) (dumps : w.chain.dumps = chain.dumps)
  | passed (beyond : Beyond w)

theorem Failover.rests {s : Site (Recorded σ)} (f : Failover chain w)
    (dumps : s.register.chain.dumps = w.chain.dumps)
    (status : s.register.status = w.status ∨ w.status.moves s.register.status = true) :
    Failover chain { w with site := s } := by
  cases f with
  | found here => exact .found here
  | adopted here same => exact .adopted here (dumps.trans same)
  | begun here same => exact .begun here (dumps.trans same)
  | due here restoring same =>
      obtain kept | moved := status
      · exact .due here (kept.trans restoring) (dumps.trans same)
      · rw [restoring] at moved
        refine .passed ⟨.inl (Status.isLate_of_restoring moved), ?_⟩
        rw [here]
        simp
  | passed beyond => exact .passed (beyond.rests status)

theorem Failover.proceed {a : Activity} {s : Site (Recorded σ)} (f : Failover chain w)
    (c : Coherent w) (h : Proceeds settings rig.recorded w.activity w.site a s) :
    Failover chain ⟨a, s⟩ := by
  obtain ⟨activity, site⟩ := w
  dsimp only at h
  cases f with
  | found here =>
      cases here
      cases h with
      | adopts => exact .adopted rfl rfl
      | chores goes done =>
          cases goes
          exact .found rfl
  | adopted here same =>
      cases here
      cases h with
      | leaves =>
          by_cases status : site.register.status = .recovery
          · refine .due rfl (status_leave status ⟨by simp, rfl⟩) ?_
            rw [Working.chain, (rests_leave rig.recorded .recovery .restoring site).chain]
            exact same
          · have late := Status.isLate_of_drifts (.inl rfl) (c.drifts rfl) status
            rw [leave_of_ne status]
            exact .passed ⟨.inl late, by simp⟩
      | chores goes done =>
          cases goes
          exact .adopted rfl (done.kept.chain.trans same)
  | due here restoring same =>
      cases here
      cases h with
      | look => exact .begun (congrArg Activity.entering restoring) same
      | chores goes done =>
          cases goes
          exact .due rfl (done.kept.status.trans restoring) (done.kept.chain.trans same)
  | begun here same =>
      cases here
      cases h with
      | restores => exact .passed ⟨.inr rfl, by simp⟩
      | chores goes done =>
          cases goes with
          | restoreNothing => exact .passed ⟨.inr rfl, by simp⟩
          | wait => exact .begun rfl (done.kept.chain.trans same)
          | final final => cases final
  | passed beyond => exact .passed (beyond.proceed c h)

theorem Failover.not_standBy (f : Failover chain w) (c : Coherent w) : w.status ≠ .standBy := by
  intro status
  have acting {e : Status} (known : w.activity.known? = some e)
      (he : e = .restoring ∨ e = .recovery) : False :=
    c.not_blank known (.inr he) (.inl status)
  cases f with
  | found here | adopted here => exact acting (by rw [here]; rfl) (.inr rfl)
  | begun here => exact acting (by rw [here]; rfl) (.inl rfl)
  | due _ restoring =>
      rw [status] at restoring
      cases restoring
  | passed beyond =>
      obtain late | handling := beyond.late
      · rw [status] at late
        cases late
      · exact acting (Activity.known_of_handling handling) (.inl rfl)

theorem Failover.step (f : Failover chain w) (c : Coherent w)
    (h : e.perform settings rig w = some (a, w'))
    (calm : Moment.taken? ⟨e, a, w, w'⟩ = none) : Failover chain w' := by
  cases perform_cases h with
  | chores _ done => exact f.rests done.kept.chain (.inl done.kept.status)
  -- such a dump would be the one that is restored
  | ticks ticks => cases calm
  | eases _ eases =>
      have shifts : Shifts rig.recorded _ _ := eases.shifts
      exact f.rests (congrArg Chain.dumps shifts.chain) shifts.status
  | runs id bundle =>
      have shifts : Shifts rig.recorded _ _ := shifts_run id bundle w.site
      exact f.rests (congrArg Chain.dumps shifts.chain) shifts.status
  | received => exact f.rests rfl (.inl rfl)
  | accepts status => exact absurd status (f.not_standBy c)
  | silence =>
      obtain same | ⟨watching, silent⟩ := onSilence_cases w.activity w.site
      · rw [same]
        exact f
      · rw [silent, leave_of_ne (f.not_standBy c)]
        cases f with
        | found here | adopted here | due here | begun here =>
            rw [watching] at here
            cases here
        | passed beyond =>
            have late := beyond.isLate (by simp [watching, Activity.handling?, Activity.known?])
            exact .passed ⟨.inl late, by simp⟩
  | proceeds p => exact f.proceed c p

theorem Course.failover (course : Course settings rig w₀ ms w) (c : Coherent w₀)
    (f : Failover chain w₀) (calm : cadenceOf ms = []) : Coherent w ∧ Failover chain w := by
  induction course with
  | start => exact ⟨c, f⟩
  | next _ h ih =>
      rw [cadenceOf_append, List.append_eq_nil_iff] at calm
      obtain ⟨c, f⟩ := ih calm.1
      exact ⟨c.step h, f.step c h (Option.toList_eq_nil_iff.1 calm.2)⟩

/-! ## The first dump after the restore -/

theorem closed_of_restores {s s' : Site σ} (h : Proceeds settings rig (.entering .restoring) s
    (.leaving .restoring .running) s') : s'.register.closed = some s.register.chain := by
  cases h with
  | restores => rfl
  | chores goes => cases goes

/-- A restore that follows a recovery restores the dump that the recovered chain ends in. -/
theorem Failover.restored {x : Moment σ} {d : Dump} (f : Failover chain x.before)
    (reached : Reached settings rig x.before) (restores : x.restores)
    (performed : x.event.perform settings rig x.before = some (x.answer, x.after))
    (latest : chain.latest? = some d) : Restored settings rig d x.after := by
  obtain ⟨⟨proceeds, entering⟩, leaving⟩ := restores
  rw [proceeds] at performed
  have p := proceeds_of_perform performed
  rw [entering, leaving] at p
  rw [answer_of_proceed performed] at performed
  refine ⟨x.before, reached, entering, performed, leaving, ?_⟩
  have same : x.before.chain.dumps = chain.dumps := by
    cases f with
    | begun _ same => exact same
    | found here | adopted here | due here =>
        rw [entering] at here
        cases here
    | passed beyond => exact absurd entering beyond.other
  rw [Working.closed, closed_of_restores p, Option.bind_some, Chain.latest?_eq,
    show x.before.site.register.chain.dumps = _ from same, ← Chain.latest?_eq]
  exact latest

/-- After the restore of a dump the cadence begins a new chain. -/
theorem Restored.keepsSchedule {d : Dump} (positive : 1 ≤ settings.frequency.toNat)
    (restored : Restored settings rig d w₀) (course : Course settings rig w₀ ms w) :
    KeepsSchedule settings d.sequence.toNat 0 ms w := by
  obtain ⟨underway, empty, closing⟩ := restored.underway
  have stands : Stands settings.frequency d.sequence.toNat 0 none
      (position w₀.chain w₀.closed) := by
    rw [position_of_closing (Chain.latest?_eq_none_iff.2 empty) closing]
    exact ⟨rfl, nofun, Nat.zero_mod _⟩
  exact KeepsSchedule.course positive course underway stands

theorem Restored.scheduled {d : Dump} {p : Dump × Option Engine.Call}
    (positive : 1 ≤ settings.frequency.toNat) (restored : Restored settings rig d w₀)
    (course : Course settings rig w₀ ms w) (first : (cadenceOf ms)[0]? = some p) :
    p.1.kind = .pre ∧ p.1.sequence.toNat = d.sequence.toNat + 1 := by
  have scheduled := (restored.keepsSchedule positive course).taken 0 p first
  refine ⟨scheduled.kind.trans (kindOf_eq_pre ?_), scheduled.sequence⟩
  rw [Nat.mod_eq_of_lt (by omega)]
  exact Nat.one_ne_zero

theorem recover_of_recovers {r : Moment σ} (recovers : r.recovers chain)
    (performed : r.event.perform settings rig r.before = some (r.answer, r.after)) :
    Site.recover settings r.before.site.disk = .ok chain := by
  obtain ⟨proceeds, recovering, found⟩ := recovers
  rw [proceeds] at performed
  have p := proceed_of_perform performed
  rw [recovering, found] at p
  exact Activity.recovered.inj (Option.some.inj (Prod.mk.inj p).1)

/-- The first dump that the cadence takes after a failover is the pre-dump right after the last full
dump of the dump root. So its name is taken exactly if that pre-dump has a directory there. -/
theorem first_dump_after_failover {disk : Disk} {env : σ} {front mid back : List (Moment σ)}
    {r x : Moment σ} {p : Dump × Option Engine.Call} (positive : 1 ≤ settings.frequency.toNat)
    (course : Course settings rig (.started disk env) (front ++ r :: (mid ++ x :: back)) w)
    (recovers : r.recovers chain) (calm : cadenceOf mid = []) (restores : x.restores)
    (first : (cadenceOf back)[0]? = some p) :
    ∃ d, Lineage.recover r.before.site.disk settings.dumpPath = .ok d ∧
      p.1.kind = .pre ∧ p.1.sequence.toNat = d.sequence.toNat + 1 ∧
      ∀ now : Disk, Lineage.Carries now settings.dumpPath p.1 ↔
        Lineage.Followed now settings.dumpPath d := by
  obtain ⟨before, finds⟩ := course.front rfl
  obtain ⟨d, scanned, latest⟩ := Site.latest?_of_recover (recover_of_recovers recovers finds)
  have reached : Reached settings rig r.after := Reached.next ⟨disk, env, front, before⟩ finds
  have after := course.back rfl
  obtain ⟨between, performed⟩ := after.front rfl
  obtain ⟨_, failover⟩ := between.failover reached.coherent (.found recovers.2.2) calm
  have restored := failover.restored (reached.along between) restores performed latest
  obtain ⟨pre, sequence⟩ := restored.scheduled positive (after.back rfl) first
  exact ⟨d, scanned, pre, sequence, fun now => (Lineage.followed_iff pre sequence).symm⟩

/-- What happens to a replica whose source falls silent, until it searches its disk. -/
def sampleSilence : List Event :=
  [.join "s" (.ofText "/b"), .proceed, .proceed, .message "h" (.joinAck ⟨sampleContainer⟩),
    .proceed, .proceed, .proceed, .proceed, .silence, .proceed, .proceed]

/-- A failover, and a tick after it. -/
def sampleFailover (disk : Disk) : List (Moment Unit) :=
  momentsFrom .sample .sample (.started disk ())
    (sampleSilence ++ [.proceed, .proceed, .proceed, .proceed, .proceed, .proceed, .tick])

theorem not_followed_sampleDisk :
    ¬ Lineage.Followed sampleDisk (.ofText "/") ⟨.full, 1, 0⟩ := by
  rintro ⟨y, pre, _, entries, listed, mem⟩
  have only : sampleDisk.list (.ofText "/") =
      .ok [((⟨.full, 1, 0⟩ : Dump).entryName, .directory)] := by decide +kernel
  rw [only] at listed
  cases listed
  have same := Dump.entryName_inj.1 (congrArg Prod.fst (List.mem_singleton.1 mem))
  cases pre.symm.trans same.1

/-- A failover to the first full dump, which is alone on the disk. -/
theorem first_dump_after_failover_sample :
    ∃ front r mid x back p, sampleFailover sampleDisk = front ++ r :: (mid ++ x :: back) ∧
      r.before.site.disk = sampleDisk ∧ r.recovers (.ofDumps [⟨.full, 1, 0⟩]) ∧
      cadenceOf mid = [] ∧ x.restores ∧ (cadenceOf back)[0]? = some p ∧ p.1 = ⟨.pre, 2, 0⟩ ∧
      ¬ Lineage.Followed sampleDisk (.ofText "/") ⟨.full, 1, 0⟩ ∧
      ¬ Lineage.Carries sampleDisk (.ofText "/") p.1 := by
  obtain ⟨front, r, mid, x, back, p, split, disk, recovers, calm, restores, first, second⟩ :
      ∃ front r mid x back p, sampleFailover sampleDisk = front ++ r :: (mid ++ x :: back) ∧
        r.before.site.disk = sampleDisk ∧ r.recovers (.ofDumps [⟨.full, 1, 0⟩]) ∧
        cadenceOf mid = [] ∧ x.restores ∧ (cadenceOf back)[0]? = some p ∧
        p.1 = ⟨.pre, 2, 0⟩ :=
    ⟨momentsFrom .sample .sample (.started sampleDisk ()) sampleSilence, _, [_, _, _], _,
      [_, _], (⟨.pre, 2, 0⟩, _), rfl, rfl, ⟨rfl, rfl, rfl⟩, rfl, ⟨⟨rfl, rfl⟩, rfl⟩, rfl, rfl⟩
  have course : Course .sample .sample (.started sampleDisk ()) (sampleFailover sampleDisk) _ :=
    course_momentsFrom ..
  rw [split] at course
  obtain ⟨d, scanned, _, _, taken⟩ :=
    first_dump_after_failover (by decide) course recovers calm restores first
  have found : Lineage.recover sampleDisk (.ofText "/") = .ok ⟨.full, 1, 0⟩ := by decide +kernel
  obtain rfl : d = ⟨.full, 1, 0⟩ := by
    rw [disk] at scanned
    exact Except.ok.inj (scanned.symm.trans found)
  exact ⟨front, r, mid, x, back, p, split, disk, recovers, calm, restores, first, second,
    not_followed_sampleDisk, fun carries => not_followed_sampleDisk ((taken sampleDisk).1 carries)⟩

/-- A disk with the directories of a full dump and of the pre-dump after it. -/
def sampleFollowed : Disk :=
  .ofTree ⟨[([[0x64, 0x31]], .directory), ([[0x70, 0x32]], .directory)]⟩ []

/-- After a failover to a full dump that a pre-dump follows, the name of that pre-dump is used
again, while its directory is there still. -/
theorem pre_dump_name_reused :
    ∃ front r mid x wakes t, sampleFailover sampleFollowed =
        front ++ r :: (mid ++ x :: [wakes, t]) ∧
      r.before.site.disk = sampleFollowed ∧ r.recovers (.ofDumps [⟨.full, 1, 0⟩]) ∧
      cadenceOf mid = [] ∧ x.restores ∧
      (cadenceOf [wakes, t])[0]?.map Prod.fst = some ⟨.pre, 2, 0⟩ ∧
      Lineage.Carries sampleFollowed (.ofText "/") ⟨.pre, 2, 0⟩ ∧
      Lineage.Carries t.before.site.disk (.ofText "/") ⟨.pre, 2, 0⟩ := by
  have carries : Lineage.Carries sampleFollowed (.ofText "/") ⟨.pre, 2, 0⟩ :=
    ⟨_, rfl, by decide +kernel⟩
  exact ⟨momentsFrom .sample .sample (.started sampleFollowed ()) sampleSilence, _, [_, _, _], _,
    _, _, rfl, rfl, ⟨rfl, rfl, rfl⟩, rfl, ⟨⟨rfl, rfl⟩, rfl⟩, rfl, carries, carries⟩

end Node

end LiveMigration
