import LiveMigration.Proofs.Chain.Bookkeeping
import LiveMigration.Proofs.Node.Enduring

/-!
One target is sent what it misses of both chains, or, when it joins, both as a whole. Each chain
gets a pass of its own, the closed one first, and the record tells what both have tried.
-/

namespace LiveMigration.Node

variable {σ : Type} {settings : Settings} {rig : Rig σ}

/-- The deed behind an attempt to send a dump. -/
def sending (t : Target) (a : Chain.Attempt) : Deed := .sent t a.dump a.before a.arrived

theorem deeds_sendLinks (rig : Rig σ) (disk : Disk) (t : Target) (key : String)
    (before : Option Dump) (links : List Link) (r : Recorded σ) :
    (Chain.sendLinks (rig.recorded.send disk t) key before links r).state.deeds =
      r.deeds ++ (Chain.attemptsOf (Chain.pairsBehind before (links.map Link.dump))
        (Chain.sendLinks (rig.recorded.send disk t) key before links r).sent).map (sending t) := by
  induction links generalizing before r with
  | nil =>
      rw [Chain.sendLinks, List.map_nil, Chain.pairsBehind, List.zip_nil_left,
        Chain.attemptsOf_nil, List.map_nil, List.append_nil]
  | cons l links ih =>
      rw [List.map_cons, Chain.pairsBehind_cons, Chain.sendLinks]
      cases sent : rig.recorded.send disk t l.dump before r with
      | mk result state =>
          have deeds := deeds_of_send sent
          cases result with
          | error e => exact deeds
          | ok =>
              dsimp only
              rw [ih, deeds, Chain.attemptsOf_cons_succ, List.append_assoc]
              rfl

theorem deeds_sync (rig : Rig σ) (c : Chain) (disk : Disk) (t : Target) (key : String)
    (r : Recorded σ) :
    (c.sync (rig.recorded.send disk t) key r).2.2.deeds =
      r.deeds ++ (c.syncAttempts (rig.recorded.send disk t) key r).map (sending t) := by
  rw [Chain.syncAttempts_eq]
  exact deeds_sendLinks rig disk t key _ (c.pendingPart key) r

theorem deeds_sendAll (rig : Rig σ) (c : Chain) (disk : Disk) (t : Target) (key : String)
    (r : Recorded σ) :
    (c.sendAll (rig.recorded.send disk t) key r).2.2.deeds =
      r.deeds ++ (c.sendAllAttempts (rig.recorded.send disk t) key r).map (sending t) := by
  rw [Chain.sendAllAttempts_eq]
  exact deeds_sendLinks rig disk t key none c.links r

/-- The chains that a node replicates, the closed one first. -/
def Site.chains (s : Site σ) : List Chain := s.register.closed.toList ++ [s.register.chain]

/-- How both chains of a node came out of a pass to a target that began with each chain at a
place of its own, and what was tried. -/
structure Visits (t : Target) (start : Chain → Nat) (passes : List (Chain × List Chain.Attempt))
    (s s' : Site (Recorded σ)) : Prop where
  chains : s'.chains = passes.map Prod.fst
  deeds : s'.env.deeds = s.env.deeds ++ passes.flatMap fun p => p.2.map (sending t)
  passed : List.Forall₂ (fun c p => ∃ sent, c.Passed t.key (start c) sent p.2 p.1) s.chains passes
  targets : s'.register.targets = s.register.targets

theorem visits_passChains {pass : Chain → Recorded σ → Nat × Chain × Recorded σ} {t : Target}
    {start : Chain → Nat} {log : Chain → Recorded σ → List Chain.Attempt}
    (passed : ∀ (c : Chain) r, c.Passed t.key (start c) (pass c r).1 (log c r) (pass c r).2.1)
    (deeds : ∀ (c : Chain) r, (pass c r).2.2.deeds = r.deeds ++ (log c r).map (sending t))
    (s : Site (Recorded σ)) : ∃ passes, Visits t start passes s (s.passChains pass) := by
  let current := s.register.chain
  cases closed : s.register.closed with
  | none =>
      have own : s.chains = [current] := by rw [Site.chains, closed]; rfl
      rw [passChains_of_none closed]
      refine ⟨[((pass current s.env).2.1, log current s.env)], ?_, ?_, ?_, rfl⟩
      · exact congrArg (fun c => Option.toList c ++ _) closed
      · simp [deeds, current]
      · rw [own]
        exact .cons ⟨_, passed current s.env⟩ .nil
  | some c =>
      have own : s.chains = [c, current] := by rw [Site.chains, closed]; rfl
      let env := (pass c s.env).2.2
      rw [passChains_of_some closed]
      refine ⟨[((pass c s.env).2.1, log c s.env), ((pass current env).2.1, log current env)],
        rfl, ?_, ?_, rfl⟩
      · simp [deeds, current, env]
      · rw [own]
        exact .cons ⟨_, passed c s.env⟩ (.cons ⟨_, passed current env⟩ .nil)

theorem visits_syncTarget (rig : Rig σ) (s : Site (Recorded σ)) (t : Target) :
    ∃ passes, Visits t (fun c => (c.heldPart t.key).length) passes s
      (s.syncTarget rig.recorded t) := by
  rw [syncTarget_eq]
  exact visits_passChains (fun c r => c.passed_sync _ t.key r)
    (fun c r => deeds_sync rig c s.disk t t.key r) s

theorem visits_onJoin (rig : Rig σ) (host : String) (m : Rpc.Join) {id : ContainerId}
    {s : Site (Recorded σ)} (assigned : s.register.container = some id) :
    ∃ passes, Visits (Site.targetOf host m) (fun _ => 0) passes
      (s.modify fun r => (r.addTarget (Site.targetOf host m)).2)
      (s.onJoin rig.recorded host m).2 := by
  rw [onJoin_eq assigned]
  exact visits_passChains (fun c r => c.passed_sendAll _ _ r)
    (fun c r => deeds_sendAll rig c s.disk (Site.targetOf host m) _ r) _

end LiveMigration.Node
