import LiveMigration.Proofs.Node.Deeds

/-!
Facts about the chains of a node that endure. What chores and dumps keep, what outlives the end
of a chain, and what holds of a chain that nobody has been sent yet, is kept by every event.
-/

namespace LiveMigration.Node

variable {σ : Type} {settings : Settings} {rig : Rig σ} {w w' : Working σ}

theorem Rests.deeds_prefix {s s' : Site (Recorded σ)} (h : Rests rig.recorded s s') :
    s.env.deeds <+: s'.env.deeds := by
  obtain same | ⟨l, launched⟩ := h.env
  · exact ⟨[], by rw [same, List.append_nil]⟩
  · rw [launched]
    exact List.prefix_append _ _

/-- A fact about the chains of a node and its record that every event keeps. -/
structure Enduring (settings : Settings) (rig : Rig σ) (P : Site (Recorded σ) → Prop) : Prop
    extends Lasting settings rig.recorded P where
  same : ∀ {s s' : Site (Recorded σ)}, P s → s'.register.chain = s.register.chain →
    s'.register.closed = s.register.closed → s.env.deeds <+: s'.env.deeds → P s'
  fresh : ∀ {s s' : Site (Recorded σ)} {ds : List Dump}, P s → s'.register.chain = .ofDumps ds →
    s'.register.closed = none → s.env.deeds <+: s'.env.deeds → P s'
  closes : ∀ {s : Site (Recorded σ)}, P s → P (s.modify Register.closeChain)

/-- A chain that the loop has found on the disk has no marks. -/
def Working.FindsFresh (w : Working σ) : Prop :=
  ∀ c, w.activity = .recovered (.ok c) → ∃ ds, c = .ofDumps ds

theorem Working.FindsFresh.step {e : Event} {a : Answer} (h : w.FindsFresh)
    (performed : e.perform settings rig w = some (a, w')) : w'.FindsFresh := by
  cases perform_cases performed with
  | chores | ticks | eases | runs | received | accepts => exact h
  | silence =>
      obtain same | ⟨_, silent⟩ := onSilence_cases w.activity w.site
      · rw [same]
        exact h
      · rw [silent]
        exact nofun
  | proceeds p =>
      obtain ⟨activity, site⟩ := w
      dsimp only at p
      cases p with
      | look | handsOver | fallsShort | restores | adopts | leaves => exact nofun
      | chores goes =>
          rintro c rfl
          cases goes with
          | wait => exact h c rfl
          | found recovered => exact recovered c rfl

namespace Enduring

variable {P : Site (Recorded σ) → Prop} (enduring : Enduring settings rig P)

include enduring

theorem rests {s s' : Site (Recorded σ)} (rests : Rests rig.recorded s s') (h : P s) : P s' :=
  enduring.same h rests.chain rests.closed rests.deeds_prefix

theorem ticks {plan : Plan} {s s' : Site (Recorded σ)}
    (ticks : Ticks settings rig.recorded plan s s') (h : P s) : P s' := by
  obtain ⟨_, _, _, _, takes, chores, rfl⟩ := ticks.steps
  have synced := enduring.chores chores (enduring.takes takes h)
  unfold closeBehind
  split
  · exact enduring.closes synced
  · exact synced

theorem proceed {a : Activity} {s : Site (Recorded σ)} (finds : w.FindsFresh)
    (p : Proceeds settings rig.recorded w.activity w.site a s) (h : P w.site) : P s := by
  obtain ⟨activity, site⟩ := w
  dsimp only at p h
  cases p with
  | look => exact h
  | chores _ done => exact enduring.chores done h
  | handsOver hands => exact enduring.toLasting.handsOver hands h
  | fallsShort short => exact enduring.toLasting.fallsShort short h
  | @restores _ id bundle latest =>
      have launched : P (site.launch rig.recorded
          (.restore id (latest.pathIn settings.dumpPath) bundle)) :=
        enduring.same h rfl rfl (List.prefix_append ..)
      exact enduring.closes launched
  | adopts chain =>
      obtain ⟨ds, rfl⟩ := finds chain rfl
      exact enduring.fresh h rfl rfl List.prefix_rfl
  | leaves entered next => exact enduring.rests (rests_leave rig.recorded entered next site) h

theorem step {e : Event} {a : Answer} (finds : w.FindsFresh)
    (performed : e.perform settings rig w = some (a, w')) (h : P w.site) : P w'.site := by
  cases perform_cases performed with
  | chores _ done => exact enduring.chores done h
  | ticks ticks => exact enduring.ticks ticks h
  | eases _ eases =>
      have deeds := congrArg Recorded.deeds eases.env
      exact enduring.same h eases.chain eases.closed (Quiet.of_eq deeds).grows
  | runs id bundle => exact enduring.rests (shifts_run id bundle w.site).toRests h
  | received => exact enduring.same h rfl rfl List.prefix_rfl
  | accepts => exact enduring.fresh h rfl rfl List.prefix_rfl
  | silence =>
      obtain same | ⟨_, silent⟩ := onSilence_cases w.activity w.site
      · rw [same]
        exact h
      · rw [silent]
        exact enduring.rests (rests_leave rig.recorded _ _ w.site) h
  | proceeds p => exact enduring.proceed finds p h

end Enduring

theorem Course.findsFresh {w₀ : Working σ} {ms : List (Moment σ)}
    (course : Course settings rig w₀ ms w) (finds : w₀.FindsFresh) : w.FindsFresh :=
  course.preserves finds fun finds h => finds.step h

theorem Reached.findsFresh (reached : Reached settings rig w) : w.FindsFresh := by
  obtain ⟨disk, env, ms, course⟩ := reached
  exact course.findsFresh nofun

/-- What endures holds at the end of a course if it holds at its beginning. -/
theorem Enduring.course {P : Site (Recorded σ) → Prop} (enduring : Enduring settings rig P)
    {w₀ : Working σ} {ms : List (Moment σ)} (course : Course settings rig w₀ ms w)
    (finds : w₀.FindsFresh) (h : P w₀.site) : P w.site := by
  have both : w.FindsFresh ∧ P w.site :=
    course.preserves (P := fun w => w.FindsFresh ∧ P w.site) ⟨finds, h⟩ fun both performed =>
      ⟨both.1.step performed, enduring.step both.1 performed both.2⟩
  exact both.2

end LiveMigration.Node
