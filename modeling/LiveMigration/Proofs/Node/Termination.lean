import LiveMigration.Proofs.Cluster.AcknowledgedHandoff
import LiveMigration.Proofs.Node.HandlerRuns

/-!
No container outlives its node. A node that is given a task only while it stands by launches one
process at most. Until the supervisor has dealt with the end of that process, the node knows that
it is alive and which container it runs; a termination kills that container, and nothing else.
-/

namespace LiveMigration.Node

variable {σ : Type} {settings : Settings} {rig : Rig σ} {w w' : Working σ}
  {ms : List (Moment σ)} {e : Event} {a : Answer}

/-- The supervisor deals with the end of a process. -/
def Moment.settles (x : Moment σ) (l : Engine.Launch) : Prop :=
  x.event = .supervise ∧ x.before.site.node.endings.head?.map Ending.launch = some l

/-- A process was launched, and its end has not been dealt with. -/
def Outstanding (ms : List (Moment σ)) (w : Working σ) (l : Engine.Launch) : Prop :=
  l ∈ w.launches ∧ ∀ x ∈ ms, ¬ x.settles l

/-! ## How a node looks after its processes -/

/-- A node whose container runs or ran launches nothing else. -/
theorem Underway.quiet (u : Underway w) (timely : e.assigns = true → w.status = .standBy)
    (h : e.perform settings rig w = some (a, w')) : Quiet w.deeds w'.deeds := by
  have other : ∀ id bundle, e ≠ .run id bundle := by
    rintro id bundle rfl
    exact u.not_standBy (timely rfl)
  obtain quiet | entering := quiet_or_entering h other
  · exact quiet
  · have plain := u.plain
    rw [entering.2] at plain
    cases plain

/-- The container of such a node is not replaced. -/
theorem Underway.container_eq (u : Underway w) (timely : e.assigns = true → w.status = .standBy)
    (h : Touches w e a w') : w'.site.register.container = w.site.register.container := by
  have plain := u.plain
  cases h with
  | runs => exact absurd (timely rfl) u.not_standBy
  | accepts status => exact absurd status u.not_standBy
  | learns _ asking =>
      rw [asking] at plain
      cases plain
  | keeps same | follows same => exact congrArg Holdings.container same
  | adopts _ same | registers _ same | drops _ _ same | ends _ same | settles _ same =>
      exact congrArg Holdings.container same
  | restores _ _ same => exact congrArg Holdings.container same

theorem launches_of_launched {l : Engine.Launch}
    (deeds : w'.deeds = w.deeds ++ [.launched l]) : w'.launches = w.launches ++ [l] := by
  rw [Working.launches, deeds, List.filterMap_append]
  rfl

theorem Quiet.not_launched {l : Engine.Launch} (h : Quiet w.deeds w'.deeds) :
    w'.deeds ≠ w.deeds ++ [.launched l] := by
  intro launched
  have same := h.launches_eq
  rw [launches_of_launched launched] at same
  exact List.cons_ne_nil l [] (List.append_right_eq_self.1 same)

/-- The handler of a restore launches a process, or it has nothing to restore. -/
theorem restore_cases (entering : w.activity = .entering .restoring)
    (h : Event.proceed.perform settings rig w = some (a, w')) :
    w'.site = w.site ∨ ∃ id latest bundle, w.site.register.container = some id ∧
      w.chain.latest? = some latest ∧ w' = ⟨.leaving .restoring .running,
        restoredSite rig.recorded (.restore id (latest.pathIn settings.dumpPath) bundle)
          w.site⟩ := by
  have p := proceed_of_perform h
  obtain ⟨activity, site⟩ := w'
  rw [entering] at p
  unfold Site.proceed Site.enter Site.restore at p
  dsimp only at p
  split at p
  · rename_i id bundle latest container _ hlatest
    cases p
    exact .inr ⟨id, latest, bundle, container, hlatest, rfl⟩
  · cases p
    exact .inl rfl

/-- A node launches a process, and from then on its container runs. -/
structure Launches (l : Engine.Launch) (w w' : Working σ) : Prop where
  underway : Underway w'
  deeds : w'.deeds = w.deeds ++ [.launched l]
  container : w'.site.register.container = some l.container
  live : w'.site.register.live = true
  processes : w'.site.node.processes = w.site.node.processes ++ [l]
  endings : w'.site.node.endings = w.site.node.endings

theorem quiet_or_launches (reached : Reached settings rig w)
    (timely : e.assigns = true → w.status = .standBy)
    (h : e.perform settings rig w = some (a, w')) :
    Quiet w.deeds w'.deeds ∨ ∃ l, Launches l w w' := by
  by_cases running : ∃ id bundle, e = .run id bundle
  · obtain ⟨id, bundle, rfl⟩ := running
    have ran : some (Answer.outcome (w.site.run rig.recorded id bundle).1,
        { w with site := (w.site.run rig.recorded id bundle).2 }) = some (a, w') := h
    obtain ⟨rfl, rfl⟩ := Prod.mk.inj (Option.some.inj ran)
    obtain refused | ⟨accepted, same, env⟩ := Site.run_cases rig.recorded id bundle w.site
    · exact .inl (.of_eq (congrArg (·.env.deeds) refused))
    · rw [accepted] at h
      have fresh : StartedFresh settings rig _ := ⟨w, id, bundle, reached, timely rfl, h⟩
      exact .inr ⟨.run id bundle, fresh.underway.1, congrArg Recorded.deeds env,
        congrArg Holdings.container same, congrArg Holdings.live same,
        congrArg Holdings.processes same, congrArg Holdings.endings same⟩
  · have other : ∀ id bundle, e ≠ .run id bundle := fun id bundle h => running ⟨id, bundle, h⟩
    obtain quiet | ⟨rfl, entering⟩ := quiet_or_entering h other
    · exact .inl quiet
    obtain same | ⟨id, latest, bundle, container, hlatest, rfl⟩ := restore_cases entering h
    · exact .inl (.of_eq (congrArg (·.env.deeds) same))
    · obtain rfl := answer_of_proceed h
      have restored : Restored settings rig latest _ := ⟨w, reached, entering, h, rfl, hlatest⟩
      exact .inr ⟨_, restored.underway.1, rfl, container, rfl, rfl, rfl⟩

def Holdings.pending (h : Holdings) : List Engine.Launch :=
  h.processes ++ h.endings.map Ending.launch

/-- The supervisor deals with the end of a process, or everything stays. -/
inductive Tends (w : Working σ) : Event → Working σ → Prop
  | waits {e : Event} {w' : Working σ} (idle : e = .supervise → w.site.node.endings = [])
      (live : w'.site.register.live = w.site.register.live)
      (pending : w'.site.pending.Perm w.site.pending) : Tends w e w'
  | settles {ending : Ending} {rest : List Ending} {w' : Working σ}
      (oldest : w.site.node.endings = ending :: rest)
      (live : w'.site.register.live = w.site.afterEnding ending)
      (pending : w'.site.pending = w.site.node.processes ++ rest.map Ending.launch) :
      Tends w .supervise w'

theorem Tends.of_same {h : Holdings} (same : w'.site.holdings = h) (other : e ≠ .supervise)
    (live : h.live = w.site.register.live) (pending : h.pending.Perm w.site.pending) :
    Tends w e w' := by
  subst same
  exact .waits (fun h => absurd h other) live pending

theorem tends_supervise (w : Working σ) :
    Tends w .supervise { w with site := w.site.supervise } := by
  cases oldest : w.site.node.endings with
  | nil =>
      have idle : w.site.supervise = w.site := by rw [Site.supervise, oldest]
      rw [idle]
      exact .waits (fun _ => oldest) rfl (.refl _)
  | cons ending rest =>
      have same := Site.holdings_supervise oldest
      exact .settles oldest (congrArg Holdings.live same) (congrArg Holdings.pending same)

/-- Without a launch there is no process more. -/
theorem tends_of_quiet (quiet : Quiet w.deeds w'.deeds)
    (h : e.perform settings rig w = some (a, w')) : Tends w e w' := by
  by_cases supervise : e = .supervise
  · subst supervise
    cases h
    exact tends_supervise w
  cases touches_of_perform h with
  | runs _ deeds | restores _ _ _ deeds => exact absurd deeds quiet.not_launched
  | ends launched same =>
      refine .of_same same supervise rfl ?_
      simp only [Holdings.pending, Site.pending, List.map_append, List.map_cons, List.map_nil,
        ← List.append_assoc]
      refine (List.perm_append_singleton ..).trans ?_
      exact (List.perm_cons_erase launched).symm.append_right _
  | settles => exact absurd rfl supervise
  | keeps same | follows same => exact .of_same same supervise rfl (.refl _)
  | learns _ _ same | adopts _ same | accepts _ same | registers _ same | drops _ _ same =>
      exact .of_same same supervise rfl (.refl _)

/-! ## Along a course -/

/-- A node has launched nothing, or it looks after the one process that it has launched, or the
end of that process was dealt with. -/
inductive Custody (ms : List (Moment σ)) (w : Working σ) : Prop
  | early (launches : w.launches = []) (pending : w.site.pending = [])
      (live : w.site.register.live = false) (unsettled : ∀ x ∈ ms, ∀ l, ¬ x.settles l)
  | held (l : Engine.Launch) (underway : Underway w) (launches : w.launches = [l])
      (pending : w.site.pending = [l]) (live : w.site.register.live = true)
      (container : w.site.register.container = some l.container)
      (unsettled : ∀ x ∈ ms, ¬ x.settles l)
  | ended (l : Engine.Launch) (underway : Underway w) (launches : w.launches = [l])
      (pending : w.site.pending = []) (live : w.site.register.live = false)
      (settled : ∃ x ∈ ms, x.settles l)

theorem Moment.not_settles {x : Moment σ}
    (idle : x.event = .supervise → x.before.site.node.endings = []) (l : Engine.Launch) :
    ¬ x.settles l := by
  rintro ⟨supervise, oldest⟩
  rw [idle supervise] at oldest
  cases oldest

theorem endings_of_pending {s : Site σ} (h : s.pending = []) : s.node.endings = [] :=
  List.map_eq_nil_iff.1 (List.append_eq_nil_iff.1 h).2

/-- The only process has ended. -/
theorem settles_only {l : Engine.Launch} {ending : Ending} {rest : List Ending} {s : Site σ}
    (pending : s.pending = [l]) (oldest : s.node.endings = ending :: rest) :
    ending.launch = l ∧ s.node.processes ++ rest.map Ending.launch = [] := by
  rw [Site.pending, oldest, List.append_eq_singleton_iff] at pending
  obtain ⟨processes, only⟩ | ⟨_, impossible⟩ := pending
  · obtain ⟨same, rest⟩ := List.cons.inj only
    exact ⟨same, by rw [processes, rest]; rfl⟩
  · cases impossible

theorem Custody.step (c : Custody ms w) (reached : Reached settings rig w)
    (timely : e.assigns = true → w.status = .standBy)
    (h : e.perform settings rig w = some (a, w')) :
    Custody (ms ++ [⟨e, a, w, w'⟩]) w' := by
  cases c with
  | early launches pending live unsettled =>
      have unsettled : ∀ x ∈ ms ++ [⟨e, a, w, w'⟩], ∀ l, ¬ x.settles l := by
        refine List.forall_mem_append.2 ⟨unsettled, List.forall_mem_singleton.2 ?_⟩
        exact Moment.not_settles fun _ => endings_of_pending pending
      obtain quiet | ⟨l, new⟩ := quiet_or_launches reached timely h
      · cases tends_of_quiet quiet h with
        | waits idle same kept =>
            rw [pending, List.perm_nil] at kept
            exact .early (quiet.launches_eq.trans launches) kept (same.trans live) unsettled
        | settles oldest =>
            rw [endings_of_pending pending] at oldest
            cases oldest
      · refine .held l new.underway ?_ ?_ new.live new.container fun x hx => unsettled x hx l
        · rw [launches_of_launched new.deeds, launches]
          rfl
        · rw [Site.pending, List.append_eq_nil_iff] at pending
          rw [Site.pending, new.processes, new.endings, pending.1, pending.2]
          rfl
  | held l underway launches pending live container unsettled =>
      have quiet := underway.quiet timely h
      have same := underway.container_eq timely (touches_of_perform h)
      have onward := (underway.step h).1
      have launches := quiet.launches_eq.trans launches
      cases tends_of_quiet quiet h with
      | waits idle alive kept =>
          rw [pending, List.perm_singleton] at kept
          refine .held l onward launches kept (alive.trans live) (same.trans container) ?_
          refine List.forall_mem_append.2 ⟨unsettled, List.forall_mem_singleton.2 ?_⟩
          exact Moment.not_settles idle l
      | @settles ending rest _ oldest alive kept =>
          -- there is one process only, so it is its end that the supervisor deals with
          obtain ⟨own, none⟩ := settles_only pending oldest
          refine .ended l onward launches (kept.trans none) ?_ ?_
          · rw [alive, Site.afterEnding, own, container]
            simp
          · refine ⟨_, List.mem_append_right ms (List.mem_singleton_self _), rfl, ?_⟩
            simp only [oldest, List.head?_cons, Option.map_some, own]
  | ended l underway launches pending live settled =>
      have quiet := underway.quiet timely h
      have onward := (underway.step h).1
      have launches := quiet.launches_eq.trans launches
      cases tends_of_quiet quiet h with
      | waits idle alive kept =>
          rw [pending, List.perm_nil] at kept
          obtain ⟨x, hx, settles⟩ := settled
          exact .ended l onward launches kept (alive.trans live)
            ⟨x, List.mem_append_left _ hx, settles⟩
      | settles oldest =>
          rw [endings_of_pending pending] at oldest
          cases oldest

theorem Course.custody {disk : Disk} {env : σ}
    (course : Course settings rig (.started disk env) ms w) (timely : Timely ms) :
    Custody ms w := by
  induction course with
  | start => exact .early rfl rfl rfl (by simp)
  | next before h ih =>
      have reached : Reached settings rig _ := ⟨disk, env, _, before⟩
      refine (ih timely.front).step reached ?_ h
      exact timely _ (List.mem_append_right _ (List.mem_singleton_self _))

theorem Custody.length_launches (c : Custody ms w) : w.launches.length ≤ 1 := by
  cases c with
  | early launches => simp [launches]
  | held l _ launches | ended l _ launches => simp [launches]

theorem Custody.live_of_outstanding {l : Engine.Launch} (c : Custody ms w)
    (h : Outstanding ms w l) :
    w.site.register.live = true ∧ w.site.register.container = some l.container := by
  obtain ⟨launched, unsettled⟩ := h
  cases c with
  | early launches =>
      rw [launches] at launched
      cases launched
  | held own _ launches _ live container =>
      rw [launches, List.mem_singleton] at launched
      exact ⟨live, launched ▸ container⟩
  | ended own _ launches _ _ settled =>
      rw [launches, List.mem_singleton] at launched
      obtain ⟨x, hx, settles⟩ := settled
      exact absurd (launched ▸ settles) (unsettled x hx)

theorem Custody.not_live (c : Custody ms w) (h : ∀ l, ¬ Outstanding ms w l) :
    w.site.register.live = false := by
  cases c with
  | early _ _ live => exact live
  | held l _ launches _ _ _ unsettled =>
      exact absurd ⟨launches ▸ List.mem_singleton_self l, unsettled⟩ (h l)
  | ended _ _ _ _ live => exact live

/-! ## What a termination does -/

theorem deeds_terminate {s : Site (Recorded σ)} {id : ContainerId}
    (container : s.register.container = some id) (live : s.register.live = true) :
    ∃ done, (s.terminate rig.recorded).2.env.deeds = s.env.deeds ++ [.called (.kill id) done] := by
  have deeds := deeds_callEngine rig (.kill id) s
  unfold Site.terminate
  rw [container, live]
  dsimp only
  split <;> rename_i killed <;> rw [killed] at deeds <;> exact ⟨_, deeds⟩

theorem terminate_idle {s : Site σ} (live : s.register.live = false) :
    (s.terminate rig).2 = s := by
  unfold Site.terminate
  rw [live]
  cases s.register.container <;> rfl

theorem site_of_terminates {x : Moment σ}
    (h : x.event.perform settings rig x.before = some (x.answer, x.after))
    (starts : x.starts .terminated) :
    x.after.site = (x.before.site.terminate rig.recorded).2 := by
  obtain ⟨proceeds, entering⟩ := starts
  rw [proceeds] at h
  have p := proceed_of_perform h
  rw [entering] at p
  exact (congrArg Prod.snd p).symm

/-- A node launches one process at most. As long as the supervisor has not dealt with its end, the
node knows that it is alive and which container it runs. A termination kills that container, and
if there is no such process then it kills nothing. -/
theorem termination_kills_outstanding {disk : Disk} {env : σ}
    (course : Course settings rig (.started disk env) ms w) (timely : Timely ms) :
    w.launches.length ≤ 1 ∧
      (∀ l, Outstanding ms w l →
        w.site.register.live = true ∧ w.site.register.container = some l.container) ∧
      ∀ front x back, ms = front ++ x :: back → x.starts .terminated →
        (∀ l, Outstanding front x.before l →
          ∃ done, x.after.deeds = x.before.deeds ++ [.called (.kill l.container) done]) ∧
        ((∀ l, ¬ Outstanding front x.before l) → x.after.deeds = x.before.deeds) := by
  have custody := course.custody timely
  refine ⟨custody.length_launches, fun l => custody.live_of_outstanding, ?_⟩
  intro front x back h starts
  obtain ⟨before, performed⟩ := course.front h
  subst h
  have custody := before.custody timely.front
  have site := site_of_terminates performed starts
  rw [Working.deeds, site]
  refine ⟨?_, ?_⟩
  · intro l outstanding
    obtain ⟨live, container⟩ := custody.live_of_outstanding outstanding
    exact deeds_terminate container live
  · intro none
    rw [terminate_idle (custody.not_live none)]

/-- A signal comes while the container runs, which is killed then; or it comes after the container
has exited, and nothing is killed. -/
theorem termination_kills_outstanding_sample :
    let run : Event := .run sampleContainer (.ofText "/")
    let l : Engine.Launch := .run sampleContainer (.ofText "/")
    let killed : List Event := [run, .signal, .proceed]
    let exited : List Event :=
      [run, .processEnd l (.ok (.exited 0)), .supervise, .signal, .proceed]
    (Timely (sampleMoments (killed ++ [.proceed])) ∧
      ∃ x, sampleMoments (killed ++ [.proceed]) = sampleMoments killed ++ [x] ∧
        x.starts .terminated ∧ Outstanding (sampleMoments killed) x.before l ∧
        ∃ done, x.after.deeds = x.before.deeds ++ [.called (.kill sampleContainer) done]) ∧
      Timely (sampleMoments (exited ++ [.proceed])) ∧
        ∃ x, sampleMoments (exited ++ [.proceed]) = sampleMoments exited ++ [x] ∧
          x.starts .terminated ∧ (∀ l, ¬ Outstanding (sampleMoments exited) x.before l) ∧
          x.after.deeds = x.before.deeds := by
  intro run l killed exited
  have killing : sampleMoments (killed ++ [.proceed]) = sampleMoments killed ++ [_] := rfl
  have leaving : sampleMoments (exited ++ [.proceed]) = sampleMoments exited ++ [_] := rfl
  have timely : Timely (sampleMoments (killed ++ [.proceed])) := by decide +kernel
  have timely' : Timely (sampleMoments (exited ++ [.proceed])) := by decide +kernel
  have kills := (termination_kills_outstanding (course_sample _) timely).2.2 _ _ _ killing
  have spares := (termination_kills_outstanding (course_sample _) timely').2.2 _ _ _ leaving
  have outstanding : Outstanding (sampleMoments killed) (sampleAfter killed) l := by
    have unsupervised : ∀ x ∈ sampleMoments killed, (x.event matches .supervise) = false := by
      decide +kernel
    refine ⟨List.mem_singleton_self l, fun x hx settles => ?_⟩
    have other := unsupervised x hx
    rw [settles.1] at other
    cases other
  have settled : ∀ l, ¬ Outstanding (sampleMoments exited) (sampleAfter exited) l := by
    rintro l' ⟨launched, unsettled⟩
    have only : (sampleAfter exited).launches = [l] := rfl
    rw [only, List.mem_singleton] at launched
    subst launched
    exact unsettled _ (List.mem_of_getElem? (i := 2) rfl) ⟨rfl, rfl⟩
  exact ⟨⟨timely, _, killing, ⟨rfl, rfl⟩, outstanding, (kills ⟨rfl, rfl⟩).1 l outstanding⟩,
    timely', _, leaving, ⟨rfl, rfl⟩, settled, (spares ⟨rfl, rfl⟩).2 settled⟩

end LiveMigration.Node
