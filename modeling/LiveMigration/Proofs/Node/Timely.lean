import LiveMigration.Proofs.Node.Underway

/-!
Courses on which the operator gives a node its task only while it stands by. There the loop is
never overtaken: as long as the handler of a transient status is at work, the node has that
status still, unless it was asked to terminate.
-/

namespace LiveMigration

namespace Status

/-- A transient status is left by others than the loop only to terminate, unless a restored
container is given a task meanwhile. -/
theorem terminated_of_eases {s s' : Status} (transient : s.isTransient = true)
    (h : s.eases s' = true) : s' = .terminated := by
  revert s s'
  decide

end Status

namespace Node

variable {σ : Type} {settings : Settings} {rig : Rig σ}

/-- Whether an operator gives the node its task: to run a container or to follow another node. -/
def Event.assigns : Event → Bool
  | .run _ _ | .join _ _ => true
  | _ => false

/-- Tasks are given only while the node stands by. -/
def Timely (ms : List (Moment σ)) : Prop :=
  ∀ x ∈ ms, x.event.assigns = true → x.before.status = .standBy

instance (ms : List (Moment σ)) : Decidable (Timely ms) :=
  inferInstanceAs (Decidable (∀ x ∈ ms, x.event.assigns = true → x.before.status = .standBy))

/-- What holds at first, and is kept by every event on such a course, holds at its end. -/
theorem Course.preserves_timely {w₀ w : Working σ} {ms : List (Moment σ)}
    {P : List (Moment σ) → Working σ → Prop} (course : Course settings rig w₀ ms w)
    (timely : Timely ms) (init : P [] w₀)
    (step : ∀ {ms : List (Moment σ)} {w w' : Working σ} {e : Event} {a : Answer}, P ms w →
      (e.assigns = true → w.status = .standBy) → e.perform settings rig w = some (a, w') →
      P (ms ++ [⟨e, a, w, w'⟩]) w') : P ms w := by
  induction course with
  | start => exact init
  | next _ h ih =>
      refine step (ih fun x hx => timely x (List.mem_append_left _ hx)) ?_ h
      exact timely _ (List.mem_append_right _ (List.mem_singleton_self _))

/-- Every moment of a course is the end of a course itself, and the course goes on from it. -/
theorem Course.split {w₀ w : Working σ} {ms front back : List (Moment σ)} {x : Moment σ}
    (course : Course settings rig w₀ ms w) (h : ms = front ++ x :: back) :
    Course settings rig w₀ front x.before ∧
      x.event.perform settings rig x.before = some (x.answer, x.after) ∧
      Course settings rig x.after back w := by
  induction course generalizing back with
  | start => simp at h
  | @next ms w w' e a course performed ih =>
      rcases List.eq_nil_or_concat back with rfl | ⟨back, last, rfl⟩
      · obtain ⟨rfl, same⟩ := List.append_inj' h rfl
        cases List.singleton_inj.1 same
        exact ⟨course, performed, .start⟩
      · rw [List.concat_eq_append, ← List.cons_append, ← List.append_assoc] at h
        obtain ⟨earlier, same⟩ := List.append_inj' h rfl
        cases List.singleton_inj.1 same
        obtain ⟨before, performs, since⟩ := ih earlier
        rw [List.concat_eq_append]
        exact ⟨before, performs, since.next performed⟩

theorem Course.front {w₀ w : Working σ} {ms front back : List (Moment σ)} {x : Moment σ}
    (course : Course settings rig w₀ ms w) (h : ms = front ++ x :: back) :
    Course settings rig w₀ front x.before ∧
      x.event.perform settings rig x.before = some (x.answer, x.after) :=
  (course.split h).imp id And.left

theorem Course.back {w₀ w : Working σ} {ms front back : List (Moment σ)} {x : Moment σ}
    (course : Course settings rig w₀ ms w) (h : ms = front ++ x :: back) :
    Course settings rig x.after back w :=
  (course.split h).2.2

theorem Timely.front {front back : List (Moment σ)} (h : Timely (front ++ back)) :
    Timely front :=
  fun x hx => h x (List.mem_append_left back hx)

/-! ## The loop is not overtaken -/

/-- The status that a transient handler acts on is still there, or the node terminates. -/
structure Steady (w : Working σ) : Prop extends Coherent w where
  steady : ∀ e ∈ w.activity.known?, e.isTransient = true →
    w.status = e ∨ w.status = .terminated

theorem Steady.started (disk : Disk) (env : σ) : Steady (.started disk env) :=
  ⟨.started disk env, nofun⟩

/-- While a node stands by, its loop acts on no transient status. -/
theorem Steady.of_standBy {w : Working σ} (h : Steady w) (status : w.status = .standBy)
    {e : Status} (he : w.activity.known? = some e) : e.isTransient = false := by
  rw [Bool.eq_false_iff]
  intro transient
  rcases h.steady e he transient with same | same
  · rw [← same, status] at transient
    cases transient
  · rw [status] at same
    cases same

theorem Steady.proceed {w : Working σ} {a : Activity} {s : Site (Recorded σ)} (h : Steady w)
    (p : Proceeds settings rig.recorded w.activity w.site a s) : Steady ⟨a, s⟩ := by
  refine ⟨h.toCoherent.proceed p, ?_⟩
  intro known he transient
  have before := h.steady
  obtain ⟨activity, site⟩ := w
  dsimp only at p
  cases p with
  | look =>
      cases he
      exact .inl rfl
  | chores goes done =>
      obtain same | rfl := goes.known_eq
      · rw [Working.status, done.kept.status]
        exact before known (by rwa [← same]) transient
      · cases he
  | handsOver hands =>
      rw [Working.status, hands.status_eq]
      exact before known he transient
  | fallsShort short =>
      rw [Working.status, short.status_eq]
      exact before known he transient
  | restores => exact before known he transient
  | adopts => exact before known he transient
  | leaves => cases he

theorem Steady.step {w w' : Working σ} {e : Event} {a : Answer} (h : Steady w)
    (timely : e.assigns = true → w.status = .standBy)
    (performed : e.perform settings rig w = some (a, w')) : Steady w' := by
  refine ⟨h.toCoherent.step performed, ?_⟩
  intro known he transient
  cases perform_cases performed with
  | chores _ done =>
      rw [Working.status, done.kept.status]
      exact h.steady known he transient
  | ticks ticks =>
      rw [Working.status, ticks.status_eq]
      exact h.steady known he transient
  | eases _ eases =>
      have before := h.steady known he transient
      obtain same | eased := eases.status
      · rw [Working.status, same]
        exact before
      · right
        refine Status.terminated_of_eases ?_ eased
        obtain same | same := before
        · rw [Working.status] at same
          rwa [same]
        · rw [Working.status] at same
          rw [same]
          rfl
  | runs id bundle =>
      have idle := h.of_standBy (timely rfl) he
      rw [idle] at transient
      cases transient
  | received disk => exact h.steady known he transient
  | accepts status _ =>
      have idle := h.of_standBy status he
      rw [idle] at transient
      cases transient
  | silence =>
      obtain same | ⟨_, silent⟩ := onSilence_cases w.activity w.site
      · rw [same] at he ⊢
        exact h.steady known he transient
      · rw [silent] at he
        cases he
  | proceeds p => exact (h.proceed p).steady known he transient

end Node

end LiveMigration
