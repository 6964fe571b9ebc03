import LiveMigration.Proofs.Node.Chores

/-!
The dumps that a node adds to its chain. A tick that succeeds takes one, replicates, and
closes the chain behind a full dump. A handoff takes a pre-dump and a full dump that builds
on it; it may fail in between.
-/

namespace LiveMigration.Node

variable {σ : Type} {settings : Settings} {rig : Rig σ}

/-- The engine takes a dump, which is added to the chain. -/
def Takes (settings : Settings) (rig : Rig σ) (id : ContainerId) (plan : Plan)
    (leaveRunning : Bool) (s s' : Site σ) : Prop :=
  ∃ taken, s.takeDump settings rig id plan leaveRunning = (.ok (), taken) ∧
    s' = taken.modify (·.push plan.dump)

theorem Takes.node_eq {id : ContainerId} {plan : Plan} {leaveRunning : Bool} {s s' : Site σ}
    (h : Takes settings rig id plan leaveRunning s s') :
    s'.node = { s.node with register := s.register.push plan.dump } := by
  obtain ⟨taken, ht, rfl⟩ := h
  have := node_of_takeDump ht
  unfold Site.modify Site.setRegister Site.register
  rw [this]

theorem Takes.dumps_eq {id : ContainerId} {plan : Plan} {leaveRunning : Bool} {s s' : Site σ}
    (h : Takes settings rig id plan leaveRunning s s') :
    s'.register.chain.dumps = s.register.chain.dumps ++ [plan.dump] := by
  rw [Site.register, h.node_eq]
  exact Chain.dumps_push _ _

theorem Takes.closed_eq {id : ContainerId} {plan : Plan} {leaveRunning : Bool} {s s' : Site σ}
    (h : Takes settings rig id plan leaveRunning s s') :
    s'.register.closed = s.register.closed := by
  rw [Site.register, h.node_eq]
  rfl

theorem Takes.status_eq {id : ContainerId} {plan : Plan} {leaveRunning : Bool} {s s' : Site σ}
    (h : Takes settings rig id plan leaveRunning s s') :
    s'.register.status = s.register.status := by
  rw [Site.register, h.node_eq]
  rfl

/-- The step of the cadence after its dump has been replicated. -/
def closeBehind (d : Dump) (s : Site σ) : Site σ :=
  if d.isFull then s.modify Register.closeChain else s

/-- Every target is sent what it misses. -/
def Site.replicated (rig : Rig σ) (s : Site σ) : Site σ :=
  s.register.targets.foldl (Site.syncTarget rig) s

theorem chores_replicated (s : Site σ) : Chores settings rig s (s.replicated rig) :=
  chores_syncTargets s.register.targets s

/-- A tick that takes a dump. -/
structure Ticks (settings : Settings) (rig : Rig σ) (plan : Plan) (s s' : Site σ) : Prop where
  running : s.register.status = .running
  planned : Cadence.next? s.register.chain s.register.closed settings.frequency = some plan
  replicates : ∃ id taken, s.register.container = some id ∧
    Takes settings rig id plan true s taken ∧
    s' = closeBehind plan.dump (taken.replicated rig)

theorem Ticks.steps {plan : Plan} {s s' : Site σ} (h : Ticks settings rig plan s s') :
    ∃ id taken synced, s.register.container = some id ∧
      Takes settings rig id plan true s taken ∧ Chores settings rig taken synced ∧
      s' = closeBehind plan.dump synced := by
  obtain ⟨id, taken, container, takes, same⟩ := h.replicates
  exact ⟨id, taken, _, container, takes, chores_replicated taken, same⟩

theorem closeBehind_status (d : Dump) (s : Site σ) :
    (closeBehind d s).register.status = s.register.status := by
  unfold closeBehind
  split <;> rfl

theorem env_closeBehind (d : Dump) (s : Site σ) : (closeBehind d s).env = s.env := by
  unfold closeBehind
  split <;> rfl

theorem Ticks.status_eq {plan : Plan} {s s' : Site σ} (h : Ticks settings rig plan s s') :
    s'.register.status = s.register.status := by
  obtain ⟨_, _, _, _, takes, synced, rfl⟩ := h.steps
  rw [closeBehind_status, synced.kept.status, takes.status_eq]

/-- A tick closes the chain with a full dump or makes it longer by one. -/
theorem Ticks.dumps_eq {plan : Plan} {s s' : Site σ} (h : Ticks settings rig plan s s') :
    s'.register.chain.dumps =
      if plan.dump.kind = .full then [] else s.register.chain.dumps ++ [plan.dump] := by
  obtain ⟨_, _, synced, _, takes, done, rfl⟩ := h.steps
  unfold closeBehind Dump.isFull
  by_cases full : plan.dump.kind = .full
  · rw [if_pos full, if_pos (decide_eq_true full)]
    rfl
  · rw [if_neg full, if_neg (by simpa using full), done.kept.chain, takes.dumps_eq]

theorem dumpTick_cases {s s' : Site σ} {r : Attempt (Option Dump)}
    (h : s.dumpTick settings rig = (r, s')) :
    (Chores settings rig s s' ∧ ∀ d, r ≠ .ok (some d)) ∨
      ∃ plan, r = .ok (some plan.dump) ∧ Ticks settings rig plan s s' := by
  unfold Site.dumpTick at h
  split at h
  · cases h
    exact .inl ⟨.refl, by simp⟩
  rename_i running
  split at h
  · cases h
    exact .inl ⟨.refl, by simp⟩
  rename_i id container
  split at h
  · cases h
    exact .inl ⟨.refl, by simp⟩
  rename_i plan planned
  split at h
  · rename_i ht
    cases h
    have next := (Cadence.next?_eq_some planned).2.2
    exact .inl ⟨.single (.failedDump next ht), by simp⟩
  · rename_i taken ht
    cases h
    exact .inr ⟨plan, rfl, by simpa using running, planned, id, _, container, ⟨taken, ht, rfl⟩,
      rfl⟩

/-- The two dumps that end a chain for a handoff. -/
structure FinalDumps (settings : Settings) (rig : Rig σ) (id : ContainerId) (pre : Plan)
    (full : Dump) (s s' : Site σ) : Prop where
  planned : Cadence.finalPre? s.register.chain s.register.closed = some pre
  follows : pre.dump.nextFull? = some full
  steps : ∃ between, Takes settings rig id pre true s between ∧
    Takes settings rig id ⟨full, some pre.dump⟩ false between s'

theorem FinalDumps.dumps_eq {id : ContainerId} {pre : Plan} {full : Dump} {s s' : Site σ}
    (h : FinalDumps settings rig id pre full s s') :
    s'.register.chain.dumps = s.register.chain.dumps ++ [pre.dump, full] := by
  obtain ⟨between, first, second⟩ := h.steps
  rw [second.dumps_eq, first.dumps_eq, List.append_assoc]
  rfl

/-- How far a handoff gets that fails. -/
inductive FallsShort (settings : Settings) (rig : Rig σ) : Site σ → Site σ → Prop
  | early {s s' : Site σ} (h : Chores settings rig s s') : FallsShort settings rig s s'
  | between {s taken s' : Site σ} {id : ContainerId} {pre : Plan}
      (planned : Cadence.finalPre? s.register.chain s.register.closed = some pre)
      (first : Takes settings rig id pre true s taken) (h : Chores settings rig taken s') :
      FallsShort settings rig s s'
  | late {s taken s' : Site σ} {id : ContainerId} {pre : Plan} {full : Dump}
      (final : FinalDumps settings rig id pre full s taken) (h : Chores settings rig taken s') :
      FallsShort settings rig s s'

theorem takeFinalDumps_cases {id : ContainerId} {s s' : Site σ} {r : Attempt Unit}
    (h : s.takeFinalDumps settings rig id = (r, s')) :
    (r = .ok () ∧ ∃ pre full, FinalDumps settings rig id pre full s s') ∨
      (∃ e, r = .error e) ∧ FallsShort settings rig s s' := by
  unfold Site.takeFinalDumps at h
  split at h
  · cases h
    exact .inr ⟨⟨_, rfl⟩, .early .refl⟩
  rename_i pre planned
  split at h
  · rename_i ht
    cases h
    have next := (Cadence.finalPre?_eq_some planned).2.2
    exact .inr ⟨⟨_, rfl⟩, .early (.single (.failedDump next ht))⟩
  rename_i taken ht
  have first : Takes settings rig id pre true s (taken.modify (·.push pre.dump)) :=
    ⟨taken, ht, rfl⟩
  dsimp only at h
  split at h
  · cases h
    exact .inr ⟨⟨_, rfl⟩, .between planned first .refl⟩
  rename_i full follows
  split at h
  · rename_i ht'
    cases h
    refine .inr ⟨⟨_, rfl⟩, .between planned first (.single (.failedDump ?_ ht'))⟩
    have latest : (taken.modify (·.push pre.dump)).register.chain.latest? = some pre.dump := by
      rw [Chain.latest?_eq, first.dumps_eq, List.getLast?_concat]
    rw [Site.nextSequence, Cadence.lastSequence_eq latest]
    exact (Dump.nextFull?_eq_some follows).2.1
  · rename_i taken' ht'
    cases h
    exact .inl ⟨rfl, pre, full, planned, follows, _, first, taken', ht', rfl⟩

/-- A handoff that is ready for its message. -/
structure HandsOver (settings : Settings) (rig : Rig σ) (t : Target) (m : Rpc.Migrate)
    (s s' : Site σ) : Prop where
  steps : ∃ id bundle pre full taken, FinalDumps settings rig id pre full s taken ∧
    taken.completeTarget rig t = (true, s') ∧
    Rpc.Migrate.new s'.register.chain.names id.text bundle = .ok m

/-- What chores and dumps keep. -/
structure Lasting (settings : Settings) (rig : Rig σ) (P : Site σ → Prop) : Prop where
  chores : ∀ {s s' : Site σ}, Chores settings rig s s' → P s → P s'
  takes : ∀ {id : ContainerId} {plan : Plan} {leaveRunning : Bool} {s s' : Site σ},
    Takes settings rig id plan leaveRunning s s' → P s → P s'

namespace Lasting

variable {P : Site σ → Prop} {s s' : Site σ} (lasting : Lasting settings rig P)

include lasting

theorem finalDumps {id : ContainerId} {pre : Plan} {full : Dump}
    (final : FinalDumps settings rig id pre full s s') (h : P s) : P s' := by
  obtain ⟨between, first, second⟩ := final.steps
  exact lasting.takes second (lasting.takes first h)

theorem fallsShort (short : FallsShort settings rig s s') (h : P s) : P s' := by
  cases short with
  | early done => exact lasting.chores done h
  | between _ first done => exact lasting.chores done (lasting.takes first h)
  | late final done => exact lasting.chores done (lasting.finalDumps final h)

theorem handsOver {t : Target} {m : Rpc.Migrate} (hands : HandsOver settings rig t m s s')
    (h : P s) : P s' := by
  obtain ⟨_, _, _, _, taken, final, completed, _⟩ := hands.steps
  have done : Chores settings rig _ _ := chores_completeTarget taken t
  rw [completed] at done
  exact lasting.chores done (lasting.finalDumps final h)

end Lasting

theorem lasting_status (status : Status) :
    Lasting settings rig fun s => s.register.status = status :=
  ⟨fun done same => done.kept.status.trans same, fun takes same => takes.status_eq.trans same⟩

theorem FallsShort.status_eq {s s' : Site σ} (h : FallsShort settings rig s s') :
    s'.register.status = s.register.status :=
  (lasting_status _).fallsShort h rfl

theorem HandsOver.status_eq {t : Target} {m : Rpc.Migrate} {s s' : Site σ}
    (h : HandsOver settings rig t m s s') : s'.register.status = s.register.status :=
  (lasting_status _).handsOver h rfl

theorem prepareHandoff_cases {s s' : Site σ} {r : Attempt (Target × Rpc.Migrate)}
    (h : s.prepareHandoff settings rig = (r, s')) :
    (∃ t m, r = .ok (t, m) ∧ HandsOver settings rig t m s s') ∨
      (∃ e, r = .error e) ∧ FallsShort settings rig s s' := by
  unfold Site.prepareHandoff at h
  split at h
  · rename_i id bundle t _ _ _
    split at h
    · rename_i hf
      cases h
      obtain ⟨ok, _⟩ | ⟨_, short⟩ := takeFinalDumps_cases hf
      · cases ok
      · exact .inr ⟨⟨_, rfl⟩, short⟩
    rename_i taken hf
    obtain ⟨_, pre, full, final⟩ | ⟨⟨e, he⟩, _⟩ := takeFinalDumps_cases hf
    · have completed : Chores settings rig _ _ := chores_completeTarget taken t
      split at h
      · rename_i hc
        cases h
        rw [hc] at completed
        exact .inr ⟨⟨_, rfl⟩, .late final completed⟩
      · rename_i hc
        rw [hc] at completed
        split at h
        · cases h
          exact .inr ⟨⟨_, rfl⟩, .late final completed⟩
        · rename_i hm
          cases h
          exact .inl ⟨t, _, rfl, id, bundle, pre, full, taken, final, hc, hm⟩
    · cases he
  · cases h
    exact .inr ⟨⟨_, rfl⟩, .early .refl⟩
  · cases h
    exact .inr ⟨⟨_, rfl⟩, .early .refl⟩

end LiveMigration.Node
