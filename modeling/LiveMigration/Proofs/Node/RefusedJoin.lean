import LiveMigration.Proofs.Node.Failover
import LiveMigration.Proofs.Node.Orders
import LiveMigration.Proofs.Node.Refusal
import LiveMigration.Proofs.Rpc.Handoff

/-!
A request to follow another node that is refused. It is the one failed request that does not leave
a node as it was: the source and the bundle are noted before the status is looked at. All else is
as before, but these two stay until the node gets another task, and whatever it restores or hands
over in the meantime is given the bundle of a request that it has turned down.
-/

namespace LiveMigration.Node

variable {σ : Type} {settings : Settings} {rig : Rig σ} {w w' : Working σ} {a : Answer}
  {source : String} {bundle : Path}

/-- The node is given another task, or is asked again to follow somebody. -/
inductive Event.Reassigns : Event → Answer → Prop
  | run (id : ContainerId) (bundle : Path) : Reassigns (.run id bundle) (.outcome (.ok ()))
  | join (source : String) (bundle : Path) (a : Answer) : Reassigns (.join source bundle) a
  | handoff (host : String) (m : Rpc.Migrate) : Reassigns (.message host (.migrate m)) (.reply .ack)

/-- The node has a bundle, and it follows the source or, after a recovery, nobody. -/
structure Noted (source : String) (bundle : Path) (w : Working σ) : Prop where
  bundle : w.site.register.bundle = some bundle
  source : w.site.register.source = some source ∨ w.site.register.source = none

theorem Noted.of_holdings {h : Holdings} (noted : Noted source bundle w)
    (same : w'.site.holdings = h) (kept : h.bundle = w.site.register.bundle)
    (followed : h.source = w.site.register.source ∨ h.source = none) :
    Noted source bundle w' := by
  subst same
  refine ⟨kept.trans noted.bundle, ?_⟩
  obtain same | gone := followed
  · exact noted.source.imp same.trans same.trans
  · exact .inr gone

theorem Noted.touches {e : Event} (noted : Noted source bundle w) (h : Touches w e a w')
    (other : ¬ e.Reassigns a) : Noted source bundle w' := by
  cases h with
  | keeps same => exact noted.of_holdings same rfl (.inl rfl)
  | runs => exact absurd (.run _ _) other
  | follows => exact absurd (.join _ _ _) other
  | accepts => exact absurd (.handoff _ _) other
  | learns _ _ same => exact noted.of_holdings same rfl (.inl rfl)
  | adopts _ same => exact noted.of_holdings same rfl (.inr rfl)
  | restores _ _ same => exact noted.of_holdings same rfl (.inl rfl)
  | registers _ same => exact noted.of_holdings same rfl (.inl rfl)
  | drops _ _ same => exact noted.of_holdings same rfl (.inl rfl)
  | ends _ same => exact noted.of_holdings same rfl (.inl rfl)
  | settles _ same => exact noted.of_holdings same rfl (.inl rfl)

/-! ## What the bundle is used for -/

/-- A container is restored from the bundle that the node has. -/
theorem launched_of_restores {s : Site (Recorded σ)}
    (h : Event.proceed.perform settings rig ⟨.entering .restoring, s⟩ = some (a, w'))
    (restored : w'.activity = .leaving .restoring .running)
    (noted : s.register.bundle = some bundle) :
    ∃ id image, w'.deeds = s.env.deeds ++ [.launched (.restore id image bundle)] := by
  have entered : s.enter settings rig.recorded .restoring = (some w'.activity, w'.site) :=
    proceed_of_perform h
  unfold Site.enter Site.restore at entered
  rw [noted] at entered
  dsimp only at entered
  split at entered
  · rename_i same _
    cases same
    obtain ⟨-, site⟩ := Prod.mk.inj entered
    exact ⟨_, _, congrArg (fun s => s.env.deeds) site.symm⟩
  · obtain ⟨left, -⟩ := Prod.mk.inj entered
    rw [restored] at left
    cases left

theorem bundle_of_prepareHandoff {s s' : Site σ} {t : Target} {m : Rpc.Migrate}
    (h : s.prepareHandoff settings rig = (.ok (t, m), s')) :
    s.register.bundle = some m.bundle := by
  unfold Site.prepareHandoff at h
  split at h
  · rename_i noted _
    split at h
    · cases h
    split at h
    · cases h
    split at h
    · cases h
    · rename_i announced
      cases h
      obtain ⟨-, -, -, -, same⟩ := Rpc.Migrate.dumps_of_new announced
      rw [noted, same]
  · cases h
  · cases h

/-- A container is handed over with the bundle that the node has. -/
theorem bundle_of_handsOver {s : Site (Recorded σ)} {t : Target} {m : Rpc.Migrate}
    (h : Event.proceed.perform settings rig ⟨.entering .migrating, s⟩ = some (a, w'))
    (begun : w'.activity = .handingOver t m) : s.register.bundle = some m.bundle := by
  have entered : s.enter settings rig.recorded .migrating = (some w'.activity, w'.site) :=
    proceed_of_perform h
  unfold Site.enter at entered
  dsimp only at entered
  split at entered <;> rename_i prepared <;> obtain ⟨left, -⟩ := Prod.mk.inj entered <;>
    rw [begun] at left <;> cases left
  exact bundle_of_prepareHandoff prepared

/-! ## The refusal -/

/-- The source and the bundle of a request are noted, whatever the status. -/
def Site.noteSource (source : String) (bundle : Path) (s : Site σ) : Site σ :=
  s.modify fun r => { r with source := some source, bundle := some bundle }

theorem Site.join_failed {s s' : Site σ} {e : NodeError}
    (h : s.join source bundle = (.error e, s')) :
    s' = s.noteSource source bundle ∧
      ∃ refusal, e = .status refusal ∧ s.register.status.check .joining = .error refusal := by
  unfold Site.join at h
  dsimp only at h
  split at h
  · rename_i refusal after refused
    cases h
    refine ⟨Site.changeStatus_failed refused, refusal, rfl, ?_⟩
    unfold Site.changeStatus Register.changeStatus at refused
    cases checked : s.register.status.check .joining with
    | error e =>
        rw [register_modify, checked] at refused
        cases refused
        rfl
    | ok =>
        rw [register_modify, checked] at refused
        cases refused
  · cases h

theorem Site.noteSource_eq_self {s : Site σ} : s.noteSource source bundle = s ↔
    s.register.source = some source ∧ s.register.bundle = some bundle := by
  constructor
  · intro same
    rw [← same]
    exact ⟨rfl, rfl⟩
  · rintro ⟨followed, noted⟩
    rw [noteSource, ← followed, ← noted]
    rfl

theorem noted_noteSource (w : Working σ) :
    Noted source bundle { w with site := w.site.noteSource source bundle } :=
  ⟨rfl, .inl rfl⟩

theorem Noted.course {ms : List (Moment σ)} (noted : Noted source bundle w)
    (course : Course settings rig w ms w') (others : ∀ x ∈ ms, ¬ x.event.Reassigns x.answer) :
    Noted source bundle w' ∧ ∀ x ∈ ms, Noted source bundle x.before ∧
      x.event.perform settings rig x.before = some (x.answer, x.after) := by
  induction course with
  | start => exact ⟨noted, fun _ mem => absurd mem List.not_mem_nil⟩
  | @next ms w w' e a _ performed ih =>
      obtain ⟨still, before⟩ := ih fun x mem => others x (List.mem_append_left _ mem)
      have other := others ⟨e, a, w, w'⟩ (List.mem_append_right _ (List.mem_singleton_self _))
      refine ⟨still.touches (touches_of_perform performed) other, fun x mem => ?_⟩
      obtain mem | mem := List.mem_append.1 mem
      · exact before x mem
      · rw [List.mem_singleton.1 mem]
        exact ⟨still, performed⟩

/-- A request to follow another node fails only because of the status, and then it has changed
nothing but the source and the bundle, so nothing at all only if they were the same. As long as the
node gets no other task, it keeps that bundle, and that source until a recovery: it is what a
container is restored from and what is told to the next node in a handoff. -/
theorem refused_join {e : NodeError}
    (h : (Event.join source bundle).perform settings rig w = some (.outcome (.error e), w')) :
    (∃ refusal, e = .status refusal ∧ w.status.check .joining = .error refusal) ∧
    w' = { w with site := w.site.noteSource source bundle } ∧
    (w' = w ↔ w.site.register.source = some source ∧ w.site.register.bundle = some bundle) ∧
    ∀ ms w'', Course settings rig w' ms w'' → (∀ x ∈ ms, ¬ x.event.Reassigns x.answer) →
      Noted source bundle w'' ∧ ∀ x ∈ ms,
        (x.restores → ∃ id image,
          x.after.deeds = x.before.deeds ++ [.launched (.restore id image bundle)]) ∧
        ∀ t m, x.starts .migrating → x.after.activity = .handingOver t m → m.bundle = bundle := by
  obtain ⟨after, joined, rfl⟩ : ∃ after, w.site.join source bundle = (.error e, after) ∧
      w' = { w with site := after } := by
    obtain ⟨result, same⟩ := Prod.mk.inj (Option.some.inj h)
    exact ⟨_, Prod.ext (Answer.outcome.inj result) rfl, same.symm⟩
  obtain ⟨rfl, refused⟩ := Site.join_failed joined
  refine ⟨refused, rfl, ?_, fun ms w'' course others => ?_⟩
  · rw [← Site.noteSource_eq_self]
    exact ⟨fun same => congrArg Working.site same, fun same => by rw [same]⟩
  · obtain ⟨noted, before⟩ := (noted_noteSource w).course course others
    refine ⟨noted, fun x mem => ?_⟩
    obtain ⟨still, performed⟩ := before x mem
    obtain ⟨event, answer, ⟨activity, site⟩, after⟩ := x
    constructor
    · rintro ⟨⟨⟨⟩, ⟨⟩⟩, restored⟩
      exact launched_of_restores performed restored still.bundle
    · rintro t m ⟨⟨⟩, ⟨⟩⟩ begun
      have same := bundle_of_handsOver performed begun
      exact Option.some.inj (same.symm.trans still.bundle)

def sampleRequest : Event := .join "127.0.0.13:4000" (.ofText "/other")

/-- A node that has accepted a handoff turns a request down, and then restores the container from
the bundle of that request. -/
theorem refused_join_sample :
    let w := sampleAfter [.message "h" (.migrate sampleHandoff)]
    let w' := sampleAfter [.message "h" (.migrate sampleHandoff), sampleRequest]
    w.site.register.bundle = some sampleHandoff.bundle ∧
    sampleRequest.perform .sample .sample w =
      some (.outcome (.error (.status (.illegal .restoring .joining))), w') ∧
    w'.status = .restoring ∧ w' ≠ w ∧ ∃ ms w'', Course .sample .sample w' ms w'' ∧
      ∃ id image, w''.deeds = [.launched (.restore id image (.ofText "/other"))] := by
  intro w w'
  let looked : Working Unit :=
    sampleAfter [.message "h" (.migrate sampleHandoff), sampleRequest, .proceed]
  let w'' : Working Unit :=
    sampleAfter [.message "h" (.migrate sampleHandoff), sampleRequest, .proceed, .proceed]
  have refused : sampleRequest.perform .sample .sample w =
      some (.outcome (.error (.status (.illegal .restoring .joining))), w') := rfl
  let first : Moment Unit := ⟨.proceed, .nothing, w', looked⟩
  let second : Moment Unit := ⟨.proceed, .nothing, looked, w''⟩
  have course : Course .sample .sample w' ([] ++ [first] ++ [second]) w'' :=
    (Course.start.next rfl).next rfl
  have others : ∀ x ∈ [] ++ [first] ++ [second], ¬ x.event.Reassigns x.answer := by
    intro x mem
    have proceeds : x.event = .proceed := by
      obtain rfl | rfl : x = first ∨ x = second := by simpa using mem
      · rfl
      · rfl
    rw [proceeds]
    exact nofun
  obtain ⟨-, -, same, later⟩ := refused_join refused
  obtain ⟨-, used⟩ := later _ _ course others
  refine ⟨rfl, refused, rfl, fun unchanged => ?_, _, w'', course, ?_⟩
  · cases (same.1 unchanged).1
  · exact (used second (by simp)).1 ⟨⟨rfl, rfl⟩, rfl⟩

/-- A request that is refused takes the bundle of the handoff away. -/
theorem refused_join_disturbs : ∃ (w w' : Working Unit) (e : NodeError),
    Reached .sample .sample w ∧
    sampleRequest.perform .sample .sample w = some (.outcome (.error e), w') ∧
    w'.site.register.source ≠ w.site.register.source ∧
    w'.site.register.bundle ≠ w.site.register.bundle := by
  refine ⟨sampleAfter [.message "h" (.migrate sampleHandoff)], _, _, reached_sampleAfter _, rfl,
    ?_, ?_⟩
  · exact nofun
  · decide +kernel

end LiveMigration.Node
