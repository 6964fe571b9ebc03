import LiveMigration.Proofs.Node.Registration
import Mathlib.Data.List.Perm.Subperm

/-!
Rounds of pings beside joins. A round reads the targets without the lock, waits for the answers
while anything else may happen, and then removes the targets that were silent, by their keys. It
does not see whether one of them has joined again meanwhile.
-/

namespace LiveMigration.Node

variable {σ : Type} {settings : Settings} {rig : Rig σ} {w₀ w w' : Working σ}
  {ms : List (Moment σ)} {seen silent : List Target}

/-- A round of pings. It sees the targets as they are published when it begins, which may be in the
middle of an event; the pings may end in any order, and no other round ends meanwhile. -/
structure PingRound (settings : Settings) (rig : Rig σ) (w₀ : Working σ) (ms : List (Moment σ))
    (w : Working σ) (seen silent : List Target) (w' : Working σ) : Prop where
  course : Course settings rig w₀ ms w
  alone : ∀ x ∈ ms, x.event.endsRound = false
  snapshot : seen = w₀.site.register.published ∨
    ∃ x rest, ms = x :: rest ∧ seen = x.after.site.register.published
  among : silent.Subperm seen
  ends : ∃ n, (Event.drop silent).perform settings rig w = some (.removed n, w')

/-- As long as no round ends, a replica that has joined stays registered. -/
theorem Course.hasTarget_of_joined (course : Course settings rig w₀ ms w)
    (alone : ∀ x ∈ ms, x.event.endsRound = false) {x : Moment σ} (hx : x ∈ ms) {host : String}
    {m : Rpc.Join} {id : String} (joins : x.event = .message host (.join m))
    (joined : x.answer = .reply (.joined id)) :
    w.site.register.hasTarget (Site.targetOf host m).key = true := by
  induction course with
  | start => cases hx
  | @next ms w w' e a _ h ih =>
      obtain earlier | now := List.mem_append.1 hx
      · have there := ih (fun y hy => alone y (List.mem_append_left _ hy)) earlier
        obtain ⟨t, there, key⟩ := Register.hasTarget_iff.1 there
        have other : e.endsRound = false :=
          alone _ (List.mem_append_right _ (List.mem_singleton_self _))
        have kept := (enlists_of_perform h).targets_subset other there
        exact Register.hasTarget_iff.2 ⟨t, kept, key⟩
      · cases List.mem_singleton.1 now
        cases joins
        cases joined
        rw [Register.hasTarget, targets_of_joined h]
        exact hasTarget_addTarget ..

/-- A replica that has joined during a round is registered at its end, unless its key belongs to a
target that the round has seen and that was silent. -/
theorem registered_after_round (reached : Reached settings rig w₀)
    (round : PingRound settings rig w₀ ms w seen silent w') {x : Moment σ} (hx : x ∈ ms)
    {host : String} {m : Rpc.Join} {id : String} (joins : x.event = .message host (.join m))
    (joined : x.answer = .reply (.joined id)) :
    (w'.site.register.hasTarget (Site.targetOf host m).key = true ↔
        ∀ t ∈ silent, t.key ≠ (Site.targetOf host m).key) ∧
      ((∀ t ∈ seen, t.key ≠ (Site.targetOf host m).key) →
        w'.site.register.hasTarget (Site.targetOf host m).key = true) := by
  obtain ⟨n, ends⟩ := round.ends
  have register : w'.site.register = (Site.dropTargets silent w.site.register).2 := by
    cases ends
    rfl
  have joined := round.course.hasTarget_of_joined round.alone hx joins joined
  have dropped := ((reached.along round.course).orderly.dropTargets silent).2
  have outcome : w'.site.register.hasTarget (Site.targetOf host m).key = true ↔
      ∀ t ∈ silent, t.key ≠ (Site.targetOf host m).key := by
    simp only [register, Register.hasTarget_iff, dropped]
    refine ⟨?_, fun answered => ?_⟩
    · rintro ⟨t, ⟨_, answered⟩, key⟩ t' ht' same
      exact answered t' ht' (key.trans same.symm)
    · obtain ⟨t, there, key⟩ := Register.hasTarget_iff.1 joined
      exact ⟨t, ⟨there, fun t' ht' same => answered t' ht' (same.symm.trans key)⟩, key⟩
  exact ⟨outcome, fun unseen => outcome.2 fun t ht => unseen t (List.Subperm.subset round.among ht)⟩

/-- A node that runs a container and has a replica. -/
def samplePrimary : Working Unit :=
  sampleAfter [.run sampleContainer (.ofText "/"), .message "h" (.join sampleJoin)]

theorem reached_samplePrimary : Reached .sample .sample samplePrimary := reached_sampleAfter _

/-- A round that its replica is silent in, while something else happens. -/
theorem pingRound_sample {e : Event} {a : Answer} {w w' : Working Unit}
    (happens : e.perform .sample .sample samplePrimary = some (a, w)) (other : e.endsRound = false)
    (ends : (Event.drop [sampleReplica]).perform .sample .sample w = some (.removed 1, w')) :
    PingRound .sample .sample samplePrimary [⟨e, a, samplePrimary, w⟩] w
      [sampleReplica] [sampleReplica] w' where
  course := .next .start happens
  alone := by simpa using other
  snapshot := .inl rfl
  among := List.Subperm.refl _
  ends := ⟨1, ends⟩

/-- Another replica, which has a listener of its own. -/
def secondJoin : Rpc.Join := { sampleJoin with rpcPort := ⟨6, by decide⟩ }

/-- Another replica joins while the first one is pinged and is silent. -/
theorem registered_after_round_sample :
    ∃ w w', Reached .sample .sample samplePrimary ∧
      PingRound .sample .sample samplePrimary
        [⟨.message "h" (.join secondJoin), .reply (.joined "c"), samplePrimary, w⟩] w
        [sampleReplica] [sampleReplica] w' ∧
      w'.site.register.hasTarget (Site.targetOf "h" secondJoin).key = true := by
  have round := pingRound_sample (e := .message "h" (.join secondJoin)) rfl rfl rfl
  have registered := registered_after_round reached_samplePrimary round
    (List.mem_singleton_self _) rfl rfl
  exact ⟨_, _, reached_samplePrimary, round, registered.2 (by decide)⟩

/-- The replica itself joins again while it is pinged and is silent: it is answered, and it is not
registered when the round ends. -/
theorem rejoin_undone :
    ∃ w w', Reached .sample .sample samplePrimary ∧
      PingRound .sample .sample samplePrimary
        [⟨.message "h" (.join sampleJoin), .reply (.joined "c"), samplePrimary, w⟩] w
        [sampleReplica] [sampleReplica] w' ∧
      w'.site.register.hasTarget (Site.targetOf "h" sampleJoin).key = false :=
  ⟨_, _, reached_samplePrimary, pingRound_sample rfl rfl rfl, rfl⟩

end LiveMigration.Node
