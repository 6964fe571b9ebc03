import LiveMigration.Proofs.Node.Timely

/-!
A handler runs once for each time its status is entered. The loop begins the handler of a
transient status only after the node has entered that status and has not begun the handler for
it since. What the handler ends with is applied, or the node is terminating by then.
-/

namespace LiveMigration.Node

variable {σ : Type} {settings : Settings} {rig : Rig σ}

/-- The loop begins the handler of a status. -/
def Moment.starts (x : Moment σ) (e : Status) : Prop :=
  x.event = .proceed ∧ x.before.activity = .entering e

def Moment.enters (x : Moment σ) (e : Status) : Prop :=
  x.before.status ≠ e ∧ x.after.status = e

/-- The status was entered, and its handler has not begun since. -/
def Fresh (e : Status) (ms : List (Moment σ)) : Prop :=
  ∃ front x since, ms = front ++ x :: since ∧ x.enters e ∧ ∀ y ∈ since, ¬ y.starts e

theorem Fresh.entered {e : Status} {x : Moment σ} (h : x.enters e) (ms : List (Moment σ)) :
    Fresh e (ms ++ [x]) :=
  ⟨ms, x, [], rfl, h, by simp⟩

theorem Fresh.next {e : Status} {ms : List (Moment σ)} (h : Fresh e ms) {x : Moment σ}
    (idle : ¬ x.starts e) : Fresh e (ms ++ [x]) := by
  obtain ⟨front, z, since, rfl, enters, none⟩ := h
  refine ⟨front, z, since ++ [x], by simp, enters, ?_⟩
  intro y hy
  rcases List.mem_append.1 hy with hy | hy
  · exact none y hy
  · rwa [List.mem_singleton.1 hy]

/-! ## What the loop does -/

/-- The status whose handler is at work. -/
def Activity.handling? : Activity → Option Status
  | .entering _ => none
  | a => a.known?

theorem handling_of_enter {e : Status} {s s' : Site σ} {a : Activity}
    (h : s.enter settings rig e = (some a, s')) :
    a = .deciding ∧ e.isTransient = false ∨ a.handling? = some e := by
  unfold Site.enter at h
  cases e with
  | stopped | failed =>
      cases h
      exact .inl ⟨rfl, rfl⟩
  | standBy | running | restoring | recovery | terminated =>
      cases h
      exact .inr rfl
  | migrating =>
      dsimp only at h
      split at h <;> cases h <;> exact .inr rfl
  | joining =>
      dsimp only at h
      split at h
      · cases h
        exact .inr rfl
      · split at h <;> cases h <;> exact .inr rfl

/-- A handler goes on until it tells how it ends. -/
theorem handling_of_proceed {a a' : Activity} {s s' : Site σ}
    (h : s.proceed settings rig a = (some a', s')) {e : Status} (he : a.handling? = some e)
    (transient : e.isTransient = true) :
    a'.handling? = some e ∨ ∃ n, a = .leaving e n ∧ s' = s.leave e n := by
  unfold Site.proceed at h
  cases a with
  | deciding | entering => cases he
  | cadence | standBy =>
      cases he
      cases transient
  | handingOver t m =>
      cases he
      dsimp only at h
      split at h <;> cases h <;> exact .inl rfl
  | asking source m =>
      cases he
      dsimp only at h
      split at h <;> cases h <;> exact .inl rfl
  | recovering | recovered =>
      cases he
      cases h
      exact .inl rfl
  | leaving entered next =>
      cases he
      cases h
      exact .inr ⟨next, rfl, rfl⟩

/-- The loop is about to begin the handler of the status that it has just looked at. -/
theorem look_of_entering {a : Activity} {s s' : Site σ} {e : Status}
    (h : s.proceed settings rig a = (some (.entering e), s')) :
    a = .deciding ∧ e = s.register.status := by
  cases proceed_cases h with
  | look => exact ⟨rfl, rfl⟩
  | chores goes _ =>
      cases goes with
      | wait =>
          obtain ⟨deciding, _⟩ | handling := handling_of_enter h
          · cases deciding
          · cases handling

theorem activity_of_perform {w w' : Working σ} {e : Event} {a : Answer}
    (h : e.perform settings rig w = some (a, w')) (other : e ≠ .proceed) :
    w'.activity = w.activity ∨ w.activity = .standBy true ∧ w'.activity = .deciding := by
  cases perform_cases h with
  | chores | ticks | eases | runs | received | accepts => exact .inl rfl
  | silence =>
      obtain same | ⟨watching, silent⟩ := onSilence_cases w.activity w.site
      · rw [same]
        exact .inl rfl
      · rw [silent]
        exact .inr ⟨watching, rfl⟩
  | proceeds => exact absurd rfl other

theorem ne_of_mayEnd {e n : Status} (h : mayEnd e n = true) : n ≠ e := by
  revert e n
  decide

/-! ## Along a course -/

/-- A status whose handler is about to begin, or does not act on it yet, is fresh. -/
structure RunsOnce (ms : List (Moment σ)) (w : Working σ) : Prop extends Steady w where
  begins : ∀ e, w.activity = .entering e → e.isTransient = true → Fresh e ms
  waits : ∀ e, e.isTransient = true → w.status = e → w.activity.handling? ≠ some e → Fresh e ms

theorem RunsOnce.started (disk : Disk) (env : σ) : RunsOnce [] (.started disk env) := by
  refine ⟨.started disk env, nofun, ?_⟩
  rintro e transient rfl
  cases transient

theorem RunsOnce.step {ms : List (Moment σ)} {w w' : Working σ} {e : Event} {a : Answer}
    (h : RunsOnce ms w) (timely : e.assigns = true → w.status = .standBy)
    (performed : e.perform settings rig w = some (a, w')) :
    RunsOnce (ms ++ [⟨e, a, w, w'⟩]) w' := by
  refine ⟨h.toSteady.step timely performed, ?_, ?_⟩
  · intro known entering transient
    by_cases proceeds : e = .proceed
    · subst proceeds
      have p := proceed_of_perform performed
      rw [entering] at p
      obtain ⟨deciding, rfl⟩ := look_of_entering p
      refine (h.waits _ transient rfl (by rw [deciding]; nofun)).next ?_
      rintro ⟨_, starting⟩
      rw [deciding] at starting
      cases starting
    · obtain same | ⟨_, deciding⟩ := activity_of_perform performed proceeds
      · exact (h.begins known (same ▸ entering) transient).next fun starts => proceeds starts.1
      · rw [deciding] at entering
        cases entering
  · intro known transient status idle
    by_cases entered : w.status = known
    · by_cases proceeds : e = .proceed
      · subst proceeds
        have p := proceed_of_perform performed
        refine (h.waits known transient entered ?_).next ?_
        · intro busy
          obtain goes | ⟨n, leaving, left⟩ := handling_of_proceed p busy transient
          · exact idle goes
          · have ends := h.ends known n leaving
            have changed := status_leave entered (allowed_of_mayEnd ends)
            rw [← left] at changed
            exact ne_of_mayEnd ends (changed.symm.trans status)
        · rintro ⟨_, starting⟩
          dsimp only at starting
          rw [starting] at p
          obtain ⟨_, idle'⟩ | begun := handling_of_enter p
          · rw [transient] at idle'
            cases idle'
          · exact idle begun
      · refine (h.waits known transient entered ?_).next fun starts => proceeds starts.1
        obtain same | ⟨watching, _⟩ := activity_of_perform performed proceeds
        · rwa [← same]
        · rw [watching]
          rintro ⟨⟩
          cases transient
    · exact .entered ⟨entered, status⟩ ms

theorem Course.runsOnce {disk : Disk} {env : σ} {w : Working σ} {ms : List (Moment σ)}
    (course : Course settings rig (.started disk env) ms w) (timely : Timely ms) :
    RunsOnce ms w :=
  course.preserves_timely timely (.started disk env)
    fun h timely performed => h.step timely performed

/-- A handler may end as it does, so nothing but another status keeps its change from being
applied. -/
theorem Steady.leaves {w : Working σ} (h : Steady w) {e n : Status}
    (leaving : w.activity = .leaving e n) :
    (∃ r, w.site.register.changeStatusFrom e n = .ok (true, r) ∧ r.status = n) ∨
      w.status = .terminated ∧
        w.site.register.changeStatusFrom e n = .ok (false, w.site.register) := by
  have allowed := allowed_of_mayEnd (h.ends e n leaving)
  have transient : e.isTransient = true := by
    have ends := h.ends e n leaving
    unfold mayEnd at ends
    simp only [Bool.and_eq_true] at ends
    exact ends.1.1
  by_cases status : w.site.register.status = e
  · exact .inl ⟨_, changeStatusFrom_of_eq status allowed, rfl⟩
  · have known : w.activity.known? = some e := by
      rw [leaving]
      rfl
    exact .inr ⟨(h.steady e known transient).resolve_left status,
      changeStatusFrom_of_ne n status⟩

/-- Every start of the handler of a transient status is the first one since an entry into that
status; and what a handler ends with is applied, or dropped because the node is terminating. -/
theorem handler_runs_once {disk : Disk} {env : σ} {w : Working σ}
    {ms front back : List (Moment σ)} {x : Moment σ}
    (course : Course settings rig (.started disk env) ms w) (timely : Timely ms)
    (h : ms = front ++ x :: back) :
    (∀ e, e.isTransient = true → x.starts e → Fresh e front) ∧
      ∀ e n, x.event = .proceed → x.before.activity = .leaving e n →
        (∃ r, x.before.site.register.changeStatusFrom e n = .ok (true, r) ∧
          x.after.site = x.before.site.setRegister r ∧ x.after.status = n) ∨
        x.before.status = .terminated ∧
          x.before.site.register.changeStatusFrom e n = .ok (false, x.before.site.register) ∧
          x.after.site = x.before.site := by
  obtain ⟨before, performed⟩ := course.front h
  subst h
  have invariant := before.runsOnce timely.front
  refine ⟨?_, ?_⟩
  · rintro e transient ⟨_, entering⟩
    exact invariant.begins e entering transient
  · intro e n proceeds leaving
    rw [proceeds] at performed
    have p := proceed_of_perform performed
    rw [leaving] at p
    have left : x.after.site = x.before.site.leave e n := (congrArg Prod.snd p).symm
    rcases invariant.leaves leaving with ⟨r, applied, status⟩ | ⟨terminated, dropped⟩
    · have changed : x.after.site = x.before.site.setRegister r := by
        rw [left, Site.leave, applied]
      exact .inl ⟨r, applied, changed, by rw [Working.status, changed]; exact status⟩
    · have same : x.after.site = x.before.site := by
        rw [left, Site.leave, dropped]
        rfl
      exact .inr ⟨terminated, dropped, same⟩

/-- A node that is asked to terminate while it joins: the handler of the join has begun once, and
what it ends with is dropped. -/
theorem handler_runs_once_sample :
    let begun : List Event := [.join "s" (.ofText "/"), .proceed]
    let asked : List Event := begun ++ [.proceed, .signal, .proceed]
    let ms := sampleMoments (asked ++ [.proceed])
    Timely ms ∧
      (∃ x back, ms = sampleMoments begun ++ x :: back ∧ x.starts .joining ∧
        Fresh .joining (sampleMoments begun)) ∧
      ∃ x back, ms = sampleMoments asked ++ x :: back ∧
        x.before.activity = .leaving .joining .failed ∧ x.before.status = .terminated ∧
        x.after.site = x.before.site := by
  intro begun asked ms
  have course : Course .sample .sample (.started sampleDisk ()) ms _ := course_sample _
  have timely : Timely ms := by decide +kernel
  have starts : ms = sampleMoments begun ++ _ :: _ := rfl
  have leaves : ms = sampleMoments asked ++ [_] := rfl
  refine ⟨timely, ⟨_, _, starts, ⟨rfl, rfl⟩, ?_⟩, ⟨_, _, leaves, rfl, rfl, ?_⟩⟩
  · exact (handler_runs_once course timely starts).1 .joining rfl ⟨rfl, rfl⟩
  · obtain ⟨r, applied, _, _⟩ | ⟨_, _, same⟩ :=
      (handler_runs_once course timely leaves).2 .joining .failed rfl rfl
    · cases applied
    · exact same

end LiveMigration.Node
