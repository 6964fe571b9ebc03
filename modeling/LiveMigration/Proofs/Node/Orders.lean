import LiveMigration.Proofs.Node.Holdings
import LiveMigration.Proofs.Node.Timely

/-!
What a node was told to do: its container, the bundle, and the node that it follows. Nothing that
a node does by itself changes this, except that a join learns the container and that nobody is
followed any more after a recovery. So a container and a bundle stay there once they are there,
and a source is there only because an operator named it.
-/

namespace LiveMigration.Node

variable {σ : Type} {settings : Settings} {rig : Rig σ}

/-- A container and a bundle are there if they were, and nobody is followed who was not. -/
structure Retains (s s' : Site σ) : Prop where
  container : s.register.container.isSome = true → s'.register.container.isSome = true
  bundle : s.register.bundle.isSome = true → s'.register.bundle.isSome = true
  source : s'.register.source.isSome = true → s.register.source.isSome = true

theorem Retains.of_holdings {s s' : Site σ} {h : Holdings} (same : s'.holdings = h)
    (container : h.container = s.register.container ∨ h.container.isSome = true)
    (bundle : h.bundle = s.register.bundle ∨ h.bundle.isSome = true)
    (source : h.source = s.register.source ∨ h.source = none) : Retains s s' := by
  subst same
  refine ⟨?_, ?_, ?_⟩
  · intro there
    obtain same | new := container
    · exact (congrArg Option.isSome same).trans there
    · exact new
  · intro there
    obtain same | new := bundle
    · exact (congrArg Option.isSome same).trans there
    · exact new
  · intro there
    obtain same | gone := source
    · exact (congrArg Option.isSome same).symm.trans there
    · have there : s'.holdings.source.isSome = true := there
      rw [gone] at there
      cases there

theorem Retains.of_same {s s' : Site σ} (same : s'.holdings = s.holdings) : Retains s s' :=
  .of_holdings same (.inl rfl) (.inl rfl) (.inl rfl)

theorem Touches.retains {w w' : Working σ} {e : Event} {a : Answer}
    (h : Touches w e a w')
    (other : ∀ source bundle, e ≠ .join source bundle) : Retains w.site w'.site := by
  cases h with
  | keeps same => exact .of_same same
  | runs same => exact .of_holdings same (.inr rfl) (.inr rfl) (.inl rfl)
  | follows => exact absurd rfl (other _ _)
  | learns _ _ same => exact .of_holdings same (.inr rfl) (.inl rfl) (.inl rfl)
  | adopts _ same => exact .of_holdings same (.inl rfl) (.inl rfl) (.inr rfl)
  | restores _ _ same => exact .of_holdings same (.inl rfl) (.inl rfl) (.inl rfl)
  | accepts _ same => exact .of_holdings same (.inr rfl) (.inr rfl) (.inr rfl)
  | registers _ same => exact .of_holdings same (.inl rfl) (.inl rfl) (.inl rfl)
  | drops _ _ same => exact .of_holdings same (.inl rfl) (.inl rfl) (.inl rfl)
  | ends _ same => exact .of_holdings same (.inl rfl) (.inl rfl) (.inl rfl)
  | settles _ same => exact .of_holdings same (.inl rfl) (.inl rfl) (.inl rfl)

theorem retains_proceed {a a' : Activity} {s s' : Site (Recorded σ)}
    (h : s.proceed settings rig.recorded a = (some a', s')) : Retains s s' :=
  (touches_proceed h).retains fun _ _ => nofun

/-- Only a request to follow another node makes a node follow one. -/
theorem retains_of_perform {w w' : Working σ} {e : Event} {a : Answer}
    (h : e.perform settings rig w = some (a, w'))
    (other : ∀ source bundle, e ≠ .join source bundle) : Retains w.site w'.site :=
  (touches_of_perform h).retains other

end LiveMigration.Node
