import LiveMigration.Proofs.Node.Turns

/-!
The life of a node in three parts: before it has a container it has no dumps; once the
container runs, the loop never again joins, recovers or restores; and once the last dump was
taken for a handoff, or the container was given up, no further dump is taken.
-/

namespace LiveMigration

namespace Status

/-- The statuses that a node has from the time on when its container runs. -/
def isLate : Status → Bool
  | .running | .migrating | .stopped | .failed | .terminated => true
  | _ => false

/-- The statuses in which no dump is taken any more. -/
def isOver : Status → Bool
  | .stopped | .failed | .terminated => true
  | _ => false

/-- Whether a status may be found while the loop still acts on an earlier one. -/
def drifts : Status → Status → Bool
  | .standBy, s => s != .recovery
  | .restoring, s => s == .restoring || s.isLate
  | .running, s => s.isLate
  | .failed, s => s == .failed
  | e, s => s == e || s == .terminated

theorem drifts_self (s : Status) : s.drifts s = true := by
  cases s <;> rfl

theorem mem_all (s : Status) : s ∈ all := by
  cases s <;> decide

/-- What is said of every status is checked one by one. -/
instance decidableForall (p : Status → Prop) [DecidablePred p] : Decidable (∀ s, p s) :=
  decidable_of_iff (∀ s ∈ all, p s) ⟨fun h s => h s (mem_all s), fun h s _ => h s⟩

theorem drifts_moves {e s s' : Status} (h : e.drifts s = true) (m : s.moves s' = true) :
    e.drifts s' = true := by
  revert e s s'
  decide

theorem isLate_moves {s s' : Status} (h : s.isLate = true) (m : s.moves s' = true) :
    s'.isLate = true := by
  revert s s'
  decide

theorem isOver_moves {s s' : Status} (h : s.isOver = true) (m : s.moves s' = true) :
    s'.isOver = true := by
  revert s s'
  decide

theorem standBy_of_moves {s s' : Status} (m : s.moves s' = true)
    (h : s' = .standBy ∨ s' = .joining) : s = .standBy := by
  revert s s'
  decide

end Status

namespace Node

variable {σ : Type} {settings : Settings} {rig : Rig σ}

/-- The status that the loop acts on. -/
def Activity.known? : Activity → Option Status
  | .deciding => none
  | .entering e | .leaving e _ => some e
  | .cadence => some .running
  | .standBy _ => some .standBy
  | .handingOver _ _ => some .migrating
  | .asking _ _ => some .joining
  | .recovering | .recovered _ => some .recovery

theorem Activity.Goes.known_eq {a a' : Activity} (h : a.Goes a') :
    a'.known? = a.known? ∨ a' = .deciding := by
  cases h <;> first | exact .inl rfl | exact .inr rfl

/-- How the handler of a status may end. -/
def mayEnd (entered next : Status) : Bool :=
  entered.isTransient && entered.canChange next && !(next matches .terminated)

theorem Activity.Goes.mayEnd {a a' : Activity} (h : a.Goes a') {e n : Status}
    (ha' : a' = .leaving e n) : a = .leaving e n ∨ mayEnd e n = true := by
  subst ha'
  cases h with
  | wait => exact .inl rfl
  | askNobody | restoreNothing | adoptNothing => exact .inr rfl
  | terminate h | handed _ _ h => cases n <;> first | exact .inr rfl | cases h
  | answered _ _ h => obtain rfl | rfl := h <;> exact .inr rfl

theorem changeStatusFrom_of_ne {e : Status} (n : Status) {r : Register} (h : r.status ≠ e) :
    r.changeStatusFrom e n = .ok (false, r) := by
  unfold Register.changeStatusFrom
  rw [if_neg h]

theorem changeStatusFrom_of_eq {e n : Status} {r : Register} (h : r.status = e)
    (allowed : e ≠ .failed ∧ e.canChange n = true) :
    r.changeStatusFrom e n = .ok (true, { r with status := n, changes := r.changes + 1 }) := by
  have check : r.status.check n = .ok () := by
    rw [h]
    exact Status.check_eq_ok_iff.2 allowed
  unfold Register.changeStatusFrom Register.changeStatus
  rw [if_pos h, check]
  rfl

theorem leave_of_ne {e n : Status} {s : Site σ} (h : s.register.status ≠ e) :
    s.leave e n = s := by
  unfold Site.leave
  rw [changeStatusFrom_of_ne n h]
  rfl

theorem leave_of_eq {e n : Status} {s : Site σ} (h : s.register.status = e)
    (allowed : e ≠ .failed ∧ e.canChange n = true) :
    s.leave e n = s.setRegister
      { s.register with status := n, changes := s.register.changes + 1 } := by
  unfold Site.leave
  rw [changeStatusFrom_of_eq h allowed]

theorem status_leave {e n : Status} {s : Site σ} (h : s.register.status = e)
    (allowed : e ≠ .failed ∧ e.canChange n = true) :
    (s.leave e n).register.status = n := by
  rw [leave_of_eq h allowed]
  rfl

theorem allowed_of_mayEnd {e n : Status} (h : mayEnd e n = true) :
    e ≠ .failed ∧ e.canChange n = true := by
  revert e n
  decide

theorem isLate_of_mayEnd {e n : Status} (h : mayEnd e n = true) (late : e.isLate = true) :
    n.isLate = true := by
  revert e n
  decide

theorem isOver_of_mayEnd {e n : Status} (h : mayEnd e n = true)
    (ended : e = .migrating ∨ e.isOver = true) : n.isOver = true := by
  revert e n
  decide

theorem isOver_of_drifts {s : Status} (h : Status.migrating.drifts s = true)
    (ne : s ≠ .migrating) : s.isOver = true := by
  revert s
  decide

theorem rests_leave (rig : Rig σ) (e n : Status) (s : Site σ) : Rests rig s (s.leave e n) := by
  unfold Site.leave
  split <;> rename_i h
  · unfold Register.changeStatusFrom at h
    split at h
    · cases hc : s.register.changeStatus n with
      | error =>
          rw [hc] at h
          cases h
      | ok r =>
          rw [hc] at h
          cases h
          obtain ⟨_, _, rfl⟩ := canChange_of_changeStatus hc
          exact ⟨rfl, rfl, rfl, .inl rfl⟩
    · cases h
      exact ⟨rfl, rfl, rfl, .inl rfl⟩
  · exact .refl s

theorem onSilence_cases (a : Activity) (s : Site σ) :
    s.onSilence a = (a, s) ∨
      a = .standBy true ∧ s.onSilence a = (.deciding, s.leave .standBy .recovery) := by
  unfold Site.onSilence
  split
  · exact .inr ⟨rfl, rfl⟩
  · exact .inl rfl

theorem env_leave (e n : Status) (s : Site σ) : (s.leave e n).env = s.env := by
  unfold Site.leave
  split <;> rfl

theorem env_onSilence (a : Activity) (s : Site σ) : (s.onSilence a).2.env = s.env := by
  obtain same | ⟨_, silent⟩ := onSilence_cases a s
  · rw [same]
  · rw [silent]
    exact env_leave _ _ s

/-! ## From the start on -/

/-- The status has changed since the loop looked at it only as others may change it, and a
node that stands by or joins has no dumps. -/
structure Coherent (w : Working σ) : Prop where
  known : ∀ e ∈ w.activity.known?, e.drifts w.status = true
  ends : ∀ e n, w.activity = .leaving e n → mayEnd e n = true
  blank : w.status = .standBy ∨ w.status = .joining →
    w.chain.dumps = [] ∧ w.closed.map Chain.dumps = none

theorem Coherent.started (disk : Disk) (env : σ) : Coherent (.started disk env) := by
  refine ⟨?_, ?_, ?_⟩
  · intro e h
    cases h
  · intro e n h
    cases h
  · exact fun _ => ⟨rfl, rfl⟩

theorem Coherent.drifts {w : Working σ} (c : Coherent w) {e : Status}
    (h : w.activity.known? = some e) : e.drifts w.status = true :=
  c.known e h

/-- A loop that acts on some status tells that the node has had it, and so has dumps or may
have them. -/
theorem Coherent.not_blank {w : Working σ} (c : Coherent w) {e : Status}
    (h : w.activity.known? = some e) (he : e = .migrating ∨ e = .restoring ∨ e = .recovery) :
    ¬ (w.status = .standBy ∨ w.status = .joining) := by
  have drifts := c.drifts h
  rintro (hs | hs) <;> rw [hs] at drifts <;> obtain rfl | rfl | rfl := he <;> cases drifts

theorem eq_joining_of_mayEnd {e n : Status} (h : mayEnd e n = true)
    (hn : n = .standBy ∨ n = .joining) : e = .joining := by
  revert e n
  decide

theorem Coherent.chores {a a' : Activity} {s s' : Site (Recorded σ)} (c : Coherent ⟨a, s⟩)
    (goes : a.Goes a') (done : Chores settings rig.recorded s s') : Coherent ⟨a', s'⟩ := by
  have kept := done.kept
  refine ⟨?_, ?_, ?_⟩
  · obtain same | rfl := goes.known_eq
    · rw [Working.status, kept.status]
      dsimp only
      rw [same]
      exact c.known
    · intro e h
      cases h
  · intro e n h
    obtain same | ends := goes.mayEnd h
    · exact c.ends e n same
    · exact ends
  · rw [Working.status, Working.chain, Working.closed, kept.status, kept.chain, kept.closed]
    exact c.blank

/-- A handler that works with dumps changes no status. -/
theorem Coherent.handles {a a' : Activity} {s s' : Site (Recorded σ)} {e : Status}
    (c : Coherent ⟨a, s⟩) (known : a.known? = some e)
    (he : e = .migrating ∨ e = .restoring ∨ e = .recovery) (same : a'.known? = some e)
    (ends : ∀ e n, a' = .leaving e n → mayEnd e n = true)
    (status : s'.register.status = s.register.status) : Coherent ⟨a', s'⟩ := by
  refine ⟨?_, ends, ?_⟩
  · rw [Working.status, status, same, ← known]
    exact c.known
  · rw [Working.status, status]
    exact fun blank => absurd blank (c.not_blank known he)

/-- The loop leaves the status on which it has acted, unless the node has left it already. -/
theorem Coherent.leave {a : Activity} {s : Site (Recorded σ)} (c : Coherent ⟨a, s⟩)
    {entered next : Status} (allowed : entered ≠ .failed ∧ entered.canChange next = true)
    (joined : next = .standBy ∨ next = .joining → entered = .joining) :
    Coherent ⟨.deciding, s.leave entered next⟩ := by
  refine ⟨nofun, nofun, ?_⟩
  by_cases status : s.register.status = entered
  · rw [Working.status, Working.chain, Working.closed, status_leave status allowed,
      leave_of_eq status allowed]
    exact fun blank => c.blank (.inr (status.trans (joined blank)))
  · rw [leave_of_ne status]
    exact c.blank

theorem Coherent.proceed {w : Working σ} {a : Activity} {s : Site (Recorded σ)}
    (c : Coherent w) (h : Proceeds settings rig.recorded w.activity w.site a s) :
    Coherent ⟨a, s⟩ := by
  obtain ⟨activity, site⟩ := w
  dsimp only at h
  cases h with
  | look =>
      refine ⟨?_, nofun, c.blank⟩
      rintro _ ⟨⟩
      exact Status.drifts_self _
  | chores goes done => exact c.chores goes done
  | handsOver hands => exact c.handles rfl (.inl rfl) rfl nofun hands.status_eq
  | fallsShort short =>
      refine c.handles rfl (.inl rfl) rfl ?_ short.status_eq
      rintro e n ⟨⟩
      rfl
  | restores =>
      refine c.handles rfl (.inr (.inl rfl)) rfl ?_ rfl
      rintro e n ⟨⟩
      rfl
  | adopts =>
      refine c.handles rfl (.inr (.inr rfl)) rfl ?_ rfl
      rintro e n ⟨⟩
      rfl
  | leaves entered next =>
      have ends := c.ends entered next rfl
      exact c.leave (allowed_of_mayEnd ends) (eq_joining_of_mayEnd ends)

theorem Coherent.shifts {w : Working σ} {s : Site (Recorded σ)} (c : Coherent w)
    (shifts : Shifts rig.recorded w.site s) : Coherent { w with site := s } := by
  refine ⟨?_, c.ends, ?_⟩
  · intro e he
    obtain same | moved := shifts.status
    · rw [Working.status, same]
      exact c.known e he
    · exact Status.drifts_moves (c.known e he) moved
  · rw [Working.chain, Working.closed, shifts.chain, shifts.closed]
    intro blank
    refine c.blank ?_
    obtain same | moved := shifts.status
    · rw [Working.status, same] at blank
      exact blank
    · exact .inl (Status.standBy_of_moves moved blank)

theorem Coherent.step {w w' : Working σ} {e : Event} {a : Answer} (c : Coherent w)
    (h : e.perform settings rig w = some (a, w')) : Coherent w' := by
  cases perform_cases h with
  | chores _ done => exact c.chores (.wait _) done
  | ticks ticks =>
      refine ⟨?_, c.ends, ?_⟩
      · rw [Working.status, ticks.status_eq]
        exact c.known
      · rw [Working.status, ticks.status_eq, ticks.running]
        rintro (h | h) <;> cases h
  | eases _ eases =>
      have shifts : Shifts rig.recorded _ _ := eases.shifts
      exact c.shifts shifts
  | runs id bundle =>
      have shifts : Shifts rig.recorded _ _ := shifts_run id bundle w.site
      exact c.shifts shifts
  | received disk => exact ⟨c.known, c.ends, c.blank⟩
  | accepts status _ =>
      refine ⟨?_, c.ends, ?_⟩
      · intro e he
        have drifts := c.known e he
        rw [status] at drifts
        exact Status.drifts_moves drifts rfl
      · rintro (h | h) <;> cases h
  | silence =>
      obtain same | ⟨_, silent⟩ := onSilence_cases w.activity w.site
      · rw [same]
        exact c
      · rw [silent]
        exact c.leave ⟨nofun, rfl⟩ (by simp)
  | proceeds p => exact c.proceed p

theorem Reached.coherent {w : Working σ} (h : Reached settings rig w) : Coherent w := by
  obtain ⟨disk, env, ms, course⟩ := h
  exact course.preserves (.started disk env) fun c h => c.step h

/-! ## From the time on when the container runs -/

/-- What the loop of a node may be at whose container runs or ran. -/
def Activity.isLate : Activity → Bool
  | .leaving .restoring next => next = .running
  | a => a.known?.all fun e => e = .standBy || e.isLate

/-- A node that runs its container or ran it, and leads no new life yet. -/
structure Underway (w : Working σ) : Prop extends Coherent w where
  late : w.status.isLate = true ∨
    w.status = .restoring ∧ w.activity = .leaving .restoring .running
  plain : w.activity.isLate = true

/-- A node that takes no more dumps. -/
def Past (w : Working σ) : Prop :=
  (∃ t m, w.activity = .handingOver t m) ∨ (∃ next, w.activity = .leaving .migrating next) ∨
    w.status.isOver = true ∧ w.activity ≠ .entering .migrating

theorem Past.congr {w w' : Working σ} (past : Past w) (activity : w'.activity = w.activity)
    (status : w.status.isOver = true → w'.status.isOver = true) : Past w' := by
  obtain handing | leaving | ⟨ended, other⟩ := past
  · exact .inl (activity ▸ handing)
  · exact .inr (.inl (activity ▸ leaving))
  · exact .inr (.inr ⟨status ended, activity ▸ other⟩)

/-- What a node does whose container runs or ran. -/
inductive Works (settings : Settings) (rig : Rig σ) (w : Working σ) :
    Event → Answer → Working σ → Prop
  | chores {e : Event} {a : Answer} {w' : Working σ} (quiet : ∀ d, a ≠ .dumped (.ok (some d)))
      (h : Chores settings rig.recorded w.site w'.site)
      (same : ∀ t m, w'.activity = .handingOver t m → w.activity = .handingOver t m) :
      Works settings rig w e a w'
  | ticks {e : Event} (plan : Plan) {w' : Working σ}
      (h : Ticks settings rig.recorded plan w.site w'.site)
      (early : ¬ Past w) (same : w'.activity = w.activity) :
      Works settings rig w e (.dumped (.ok (some plan.dump))) w'
  | rests {e : Event} {a : Answer} {w' : Working σ} (quiet : ∀ d, a ≠ .dumped (.ok (some d)))
      (h : Rests rig.recorded w.site w'.site)
      (same : ∀ t m, w'.activity = .handingOver t m → w.activity = .handingOver t m) :
      Works settings rig w e a w'
  | received (disk : Disk) :
      Works settings rig w (.received disk) .nothing { w with site := { w.site with disk } }
  | handsOver {e : Event} {t : Target} {m : Rpc.Migrate} {w' : Working σ} (early : ¬ Past w)
      (h : HandsOver settings rig.recorded t m w.site w'.site)
      (now : w'.activity = .handingOver t m) : Works settings rig w e .nothing w'
  | fallsShort {e : Event} {w' : Working σ} (early : ¬ Past w)
      (h : FallsShort settings rig.recorded w.site w'.site)
      (now : w'.activity = .leaving .migrating .failed) : Works settings rig w e .nothing w'

theorem Underway.isLate {w : Working σ} (u : Underway w)
    (other : w.activity ≠ .leaving .restoring .running) : w.status.isLate = true :=
  u.late.resolve_right fun h => other h.2

theorem Underway.not_standBy {w : Working σ} (u : Underway w) : w.status ≠ .standBy := by
  intro status
  obtain late | ⟨restoring, _⟩ := u.late
  · rw [status] at late
    cases late
  · rw [status] at restoring
    cases restoring

theorem Underway.not_past_of_running {w : Working σ} (u : Underway w)
    (h : w.status = .running) : ¬ Past w := by
  have drifts {e : Status} (he : w.activity.known? = some e) : e.drifts .running = true := by
    rw [← h]
    exact u.known e he
  rintro (⟨t, m, ha⟩ | ⟨next, ha⟩ | ⟨ended, _⟩)
  · cases drifts (by rw [ha]; rfl)
  · cases drifts (by rw [ha]; rfl)
  · rw [h] at ended
    cases ended

theorem not_past_entering {w : Working σ} (h : w.activity = .entering .migrating) :
    ¬ Past w := by
  unfold Past
  rw [h]
  simp

theorem Activity.Goes.isLate {a a' : Activity} (h : a.Goes a') (plain : a.isLate = true) :
    a'.isLate = true := by
  cases h <;> first | rfl | exact plain

theorem Underway.proceed {w : Working σ} {a : Activity} {s : Site (Recorded σ)}
    (u : Underway w) (h : Proceeds settings rig.recorded w.activity w.site a s) :
    Underway ⟨a, s⟩ := by
  have coherent := u.toCoherent.proceed h
  have late := u.late
  have plain := u.plain
  obtain ⟨activity, site⟩ := w
  dsimp only at h late plain
  cases h with
  | look =>
      have late := u.isLate nofun
      refine ⟨coherent, .inl late, ?_⟩
      simp [Activity.isLate, Activity.known?, late]
  | chores goes done =>
      refine ⟨coherent, ?_, goes.isLate plain⟩
      rw [Working.status, done.kept.status]
      obtain late | ⟨restoring, rfl⟩ := late
      · exact .inl late
      · cases goes
        exact .inr ⟨restoring, rfl⟩
  | handsOver hands =>
      refine ⟨coherent, .inl ?_, rfl⟩
      rw [Working.status, hands.status_eq]
      exact u.isLate nofun
  | fallsShort short =>
      refine ⟨coherent, .inl ?_, rfl⟩
      rw [Working.status, short.status_eq]
      exact u.isLate nofun
  | restores => cases plain
  | adopts => cases plain
  | leaves entered next =>
      refine ⟨coherent, .inl ?_, rfl⟩
      have ends := u.ends entered next rfl
      by_cases status : site.register.status = entered
      · rw [Working.status, status_leave status (allowed_of_mayEnd ends)]
        obtain late | ⟨_, special⟩ := late
        · rw [Working.status, status] at late
          exact isLate_of_mayEnd ends late
        · cases special
          rfl
      · rw [Working.status, leave_of_ne status]
        obtain late | ⟨restoring, special⟩ := late
        · exact late
        · cases special
          exact absurd restoring status

theorem Past.proceed {w : Working σ} {a : Activity} {s : Site (Recorded σ)} (u : Underway w)
    (past : Past w) (h : Proceeds settings rig.recorded w.activity w.site a s) :
    Past ⟨a, s⟩ := by
  have known := u.known
  have ends := u.ends
  obtain ⟨activity, site⟩ := w
  dsimp only at h
  cases h with
  | look =>
      obtain ⟨_, _, ha⟩ | ⟨_, ha⟩ | ⟨ended, _⟩ := past
      · cases ha
      · cases ha
      · refine .inr (.inr ⟨ended, ?_⟩)
        intro ha
        rw [Working.status] at ended
        rw [Activity.entering.inj ha] at ended
        cases ended
  | chores goes done =>
      obtain ⟨t, m, rfl⟩ | ⟨next, rfl⟩ | ⟨ended, other⟩ := past
      · cases goes with
        | wait => exact .inl ⟨t, m, rfl⟩
        | handed => exact .inr (.inl ⟨_, rfl⟩)
      · cases goes
        exact .inr (.inl ⟨next, rfl⟩)
      · refine .inr (.inr ⟨?_, ?_⟩)
        · rw [Working.status, done.kept.status]
          exact ended
        · rintro rfl
          cases goes
          exact other rfl
  | handsOver => exact absurd past (not_past_entering rfl)
  | fallsShort => exact absurd past (not_past_entering rfl)
  | restores => cases u.plain
  | adopts => cases u.plain
  | leaves entered next =>
      refine .inr (.inr ⟨?_, nofun⟩)
      have ends := ends entered next rfl
      have ended : entered = .migrating ∨ site.register.status.isOver = true := by
        obtain ⟨_, _, ha⟩ | ⟨_, ha⟩ | ⟨ended, _⟩ := past
        · cases ha
        · cases ha
          exact .inl rfl
        · exact .inr ended
      by_cases status : site.register.status = entered
      · rw [Working.status, status_leave status (allowed_of_mayEnd ends)]
        rw [status] at ended
        exact isOver_of_mayEnd ends ended
      · rw [Working.status, leave_of_ne status]
        obtain rfl | ended := ended
        · exact isOver_of_drifts (known .migrating rfl) status
        · exact ended

theorem Past.shifts {w : Working σ} {s : Site (Recorded σ)} (past : Past w)
    (shifts : Shifts rig.recorded w.site s) : Past { w with site := s } := by
  refine past.congr rfl ?_
  intro ended
  obtain same | moved := shifts.status
  · rw [Working.status, same]
    exact ended
  · exact Status.isOver_moves ended moved

/-- Once the last dump was taken, there is no other one. -/
theorem Past.step {w w' : Working σ} {e : Event} {a : Answer} (u : Underway w) (past : Past w)
    (h : e.perform settings rig w = some (a, w')) : Past w' := by
  cases perform_cases h with
  | chores _ done =>
      refine past.congr rfl ?_
      rw [Working.status, Working.status, done.kept.status]
      exact id
  | ticks ticks => exact absurd past (u.not_past_of_running ticks.running)
  | eases _ eases =>
      have shifts : Shifts rig.recorded _ _ := eases.shifts
      exact past.shifts shifts
  | runs id bundle =>
      have shifts : Shifts rig.recorded _ _ := shifts_run id bundle w.site
      exact past.shifts shifts
  | received => exact past
  | accepts status => exact absurd status u.not_standBy
  | silence =>
      obtain same | ⟨watching, silent⟩ := onSilence_cases w.activity w.site
      · rw [same]
        exact past
      · obtain ⟨_, _, ha⟩ | ⟨_, ha⟩ | ⟨ended, _⟩ := past
        · rw [watching] at ha
          cases ha
        · rw [watching] at ha
          cases ha
        · rw [silent, leave_of_ne u.not_standBy]
          exact .inr (.inr ⟨ended, nofun⟩)
  | proceeds p => exact past.proceed u p

theorem Underway.shifts {w : Working σ} {s : Site (Recorded σ)} (u : Underway w)
    (coherent : Coherent { w with site := s }) (shifts : Shifts rig.recorded w.site s) :
    Underway { w with site := s } := by
  refine ⟨coherent, ?_, u.plain⟩
  obtain same | moved := shifts.status
  · rw [Working.status, same]
    exact u.late
  · obtain late | ⟨restoring, special⟩ := u.late
    · exact .inl (Status.isLate_moves late moved)
    · refine .inl ?_
      rw [Working.status] at restoring
      rw [restoring] at moved
      rw [Working.status]
      dsimp only
      revert moved
      generalize Register.status _ = status
      intro moved
      cases status <;> first | rfl | cases moved

theorem Underway.step {w w' : Working σ} {e : Event} {a : Answer} (u : Underway w)
    (h : e.perform settings rig w = some (a, w')) :
    Underway w' ∧ Works settings rig w e a w' := by
  have coherent := u.toCoherent.step h
  cases perform_cases h with
  | chores quiet done =>
      refine ⟨⟨coherent, ?_, u.plain⟩, .chores quiet done fun _ _ h => h⟩
      rw [Working.status, done.kept.status]
      exact u.late
  | ticks ticks =>
      refine ⟨⟨coherent, ?_, u.plain⟩,
        .ticks _ ticks (u.not_past_of_running ticks.running) rfl⟩
      rw [Working.status, ticks.status_eq]
      exact u.late
  | eases quiet eases =>
      have shifts : Shifts rig.recorded _ _ := eases.shifts
      exact ⟨u.shifts coherent shifts, .rests quiet shifts.toRests fun _ _ h => h⟩
  | runs id bundle =>
      have shifts : Shifts rig.recorded _ _ := shifts_run id bundle w.site
      exact ⟨u.shifts coherent shifts, .rests (by simp) shifts.toRests fun _ _ h => h⟩
  | received disk => exact ⟨⟨coherent, u.late, u.plain⟩, .received disk⟩
  | accepts status => exact absurd status u.not_standBy
  | silence =>
      obtain same | ⟨watching, silent⟩ := onSilence_cases w.activity w.site
      · rw [same]
        exact ⟨u, .chores (by simp) .refl fun _ _ h => h⟩
      · have late := u.isLate (by rw [watching]; nofun)
        rw [silent] at coherent ⊢
        rw [leave_of_ne u.not_standBy] at coherent ⊢
        exact ⟨⟨coherent, .inl late, rfl⟩, .chores (by simp) .refl (by simp)⟩
  | proceeds p =>
      refine ⟨u.proceed p, ?_⟩
      obtain ⟨activity, site⟩ := w
      dsimp only at p
      cases p with
      | look => exact .chores (by simp) .refl (by simp)
      | chores goes done =>
          refine .chores (by simp) done ?_
          rintro t m h
          dsimp only at h
          subst h
          cases goes
          rfl
      | handsOver hands => exact .handsOver (not_past_entering rfl) hands rfl
      | fallsShort short => exact .fallsShort (not_past_entering rfl) short rfl
      | restores => cases u.plain
      | adopts => cases u.plain
      | leaves entered next => exact .rests (by simp) (rests_leave _ entered next site) (by simp)

/-! ## How it begins -/

theorem proceeds_of_perform {w w' : Working σ} {a : Answer}
    (h : Event.proceed.perform settings rig w = some (a, w')) :
    Proceeds settings rig.recorded w.activity w.site w'.activity w'.site :=
  proceed_cases (proceed_of_perform h)

/-- A node that stood by was just told to run a container. -/
def StartedFresh (settings : Settings) (rig : Rig σ) (w : Working σ) : Prop :=
  ∃ before id bundle, Reached settings rig before ∧ before.status = .standBy ∧
    (Event.run id bundle).perform settings rig before = some (.outcome (.ok ()), w)

/-- A node has just restored its container from a dump, which closed its chain. -/
def Restored (settings : Settings) (rig : Rig σ) (latest : Dump) (w : Working σ) : Prop :=
  ∃ before, Reached settings rig before ∧ before.activity = .entering .restoring ∧
    Event.proceed.perform settings rig before = some (.nothing, w) ∧
    w.activity = .leaving .restoring .running ∧ w.closed.bind Chain.latest? = some latest

theorem status_run {id : ContainerId} {bundle : Path} {s : Site σ}
    (h : (s.run rig id bundle).1 = .ok ()) :
    (s.run rig id bundle).2.register.status = .running := by
  unfold Site.run at h ⊢
  split at h
  · cases h
  · rename_i hc
    unfold Site.changeStatus at hc
    split at hc
    · rename_i r hr
      cases hc
      obtain ⟨_, _, rfl⟩ := canChange_of_changeStatus hr
      rfl
    · cases hc

/-- While a node stands by, its loop is about to see so, or does so. -/
theorem Coherent.at_standBy {w : Working σ} (c : Coherent w) (h : w.status = .standBy) :
    w.activity = .deciding ∨ w.activity = .entering .standBy ∨
      ∃ watching, w.activity = .standBy watching := by
  have known : ∀ e ∈ w.activity.known?, e = .standBy := by
    intro e he
    have drifts := c.known e he
    rw [h] at drifts
    cases e <;> first | rfl | cases drifts
  cases ha : w.activity with
  | deciding => exact .inl rfl
  | standBy watching => exact .inr (.inr ⟨watching, rfl⟩)
  | entering e =>
      cases known e (by rw [ha]; rfl)
      exact .inr (.inl rfl)
  | leaving e n =>
      cases known e (by rw [ha]; rfl)
      have ends := c.ends _ _ ha
      cases n <;> cases ends
  | cadence => cases known .running (by rw [ha]; rfl)
  | handingOver => cases known .migrating (by rw [ha]; rfl)
  | asking => cases known .joining (by rw [ha]; rfl)
  | recovering | recovered => cases known .recovery (by rw [ha]; rfl)

theorem plain_of_standBy {w : Working σ} (c : Coherent w) (h : w.status = .standBy) :
    w.activity.isLate = true := by
  obtain here | here | ⟨_, here⟩ := c.at_standBy h <;> rw [here] <;> rfl

theorem StartedFresh.underway {w : Working σ} (h : StartedFresh settings rig w) :
    Underway w ∧ w.status = .running ∧ w.chain.dumps = [] ∧
      w.closed.map Chain.dumps = none := by
  obtain ⟨before, id, bundle, reached, status, performed⟩ := h
  have c := reached.coherent
  have plain := plain_of_standBy c status
  obtain ⟨chain, closed⟩ := c.blank (.inl status)
  have shifts : Shifts rig.recorded _ _ := shifts_run id bundle before.site
  have ran : some (Answer.outcome (before.site.run rig.recorded id bundle).1,
      { before with site := (before.site.run rig.recorded id bundle).2 }) =
      some (.outcome (.ok ()), w) := performed
  obtain ⟨accepted, rfl⟩ := Prod.mk.inj (Option.some.inj ran)
  have running : (before.site.run rig.recorded id bundle).2.register.status = .running :=
    status_run (Answer.outcome.inj accepted)
  refine ⟨⟨c.step performed, .inl ?_, plain⟩, running, ?_, ?_⟩
  · rw [Working.status, running]
    rfl
  · rw [Working.chain, shifts.chain]
    exact chain
  · rw [Working.closed, shifts.closed]
    exact closed

theorem Restored.underway {w : Working σ} {latest : Dump} (h : Restored settings rig latest w) :
    Underway w ∧ w.chain.dumps = [] ∧ w.closed.bind Chain.latest? = some latest := by
  obtain ⟨before, reached, entering, performed, leaving, closing⟩ := h
  have c := reached.coherent
  have known := c.known .restoring (by rw [entering]; rfl)
  have p := proceeds_of_perform performed
  rw [entering, leaving] at p
  obtain ⟨activity, site⟩ := w
  dsimp only at leaving p
  subst leaving
  cases p with
  | chores goes => cases goes
  | restores =>
      refine ⟨⟨c.step performed, ?_, rfl⟩, rfl, closing⟩
      obtain restoring | late := Bool.or_eq_true_iff.1 known
      · have restoring : before.status = .restoring := by simpa using restoring
        exact .inr ⟨restoring, rfl⟩
      · exact .inl late

end Node

end LiveMigration
