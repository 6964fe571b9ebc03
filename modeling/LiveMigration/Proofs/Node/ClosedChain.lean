import LiveMigration.Proofs.Node.Replication

/-!
What becomes of a closed chain. It is offered to every target with each dump that a node takes,
and gives way to the next chain when that one is closed. By then a target holds all of its
dumps, unless the last offer failed.
-/

namespace LiveMigration.Node

variable {σ : Type} {settings : Settings} {rig : Rig σ} {w w' : Working σ}

/-! ## Marks by age -/

/-- The marks of the current chain and of the closed one go by age. -/
structure InOrder (s : Site σ) : Prop where
  chain : s.register.chain.HeldInOrder
  closed : ∀ c ∈ s.register.closed, c.HeldInOrder

theorem InOrder.of_same {s s' : Site σ} (h : InOrder s)
    (chain : s'.register.chain = s.register.chain)
    (closed : s'.register.closed = s.register.closed) : InOrder s' :=
  ⟨chain ▸ h.chain, closed ▸ h.closed⟩

theorem InOrder.of_node {s s' : Site σ} (h : InOrder s) (same : s'.node = s.node) :
    InOrder s' := by
  refine h.of_same ?_ ?_ <;> rw [Site.register, Site.register, same]

theorem InOrder.chore {s s' : Site σ} (h : InOrder s) (done : Chore settings rig s s') :
    InOrder s' := by
  cases done with
  | node register => exact h.of_same register.chain register.closed
  | kill | cleared | network => exact h.of_node rfl
  | failedDump _ ht | checkpoint _ ht => exact h.of_node (node_of_takeDump ht)
  | sent sends => exact ⟨h.chain.sends sends, h.closed⟩
  | sentClosed closed sends =>
      refine ⟨h.chain, ?_⟩
      rintro _ ⟨⟩
      exact (h.closed _ closed).sends sends

theorem InOrder.chores {s s' : Site σ} (h : InOrder s) (done : Chores settings rig s s') :
    InOrder s' := by
  induction done with
  | refl => exact h
  | tail _ one ih => exact ih.chore one

theorem InOrder.takes {id : ContainerId} {plan : Plan} {leaveRunning : Bool} {s s' : Site σ}
    (h : InOrder s) (takes : Takes settings rig id plan leaveRunning s s') : InOrder s' := by
  refine ⟨?_, takes.closed_eq ▸ h.closed⟩
  rw [Site.register, takes.node_eq]
  exact h.chain.push plan.dump

theorem InOrder.closes {s : Site σ} (h : InOrder s) : InOrder (s.modify Register.closeChain) := by
  refine ⟨Chain.heldInOrder_empty, ?_⟩
  rintro _ ⟨⟩
  exact h.chain

theorem enduring_inOrder : Enduring settings rig InOrder where
  chores done h := h.chores done
  takes takes h := h.takes takes
  same h chain closed _ := h.of_same chain closed
  fresh {_ _ ds} _ chain closed _ :=
    ⟨chain ▸ Chain.heldInOrder_ofDumps ds, by rw [closed]; exact nofun⟩
  closes h := h.closes

theorem Reached.inOrder (reached : Reached settings rig w) : InOrder w.site := by
  obtain ⟨disk, env, ms, course⟩ := reached
  exact enduring_inOrder.course course nofun ⟨Chain.heldInOrder_empty, nofun⟩

/-! ## Offering the closed chain -/

theorem closed_syncTarget {s : Site σ} {c : Chain} (closed : s.register.closed = some c)
    (t : Target) : (s.syncTarget rig t).register.closed =
      some (c.sync (rig.send s.disk t) t.key s.env).2.1 := by
  rw [syncTarget_eq, passChains_of_some closed]
  rfl

theorem deeds_syncTarget {s : Site (Recorded σ)} {c : Chain}
    (closed : s.register.closed = some c) (t : Target) :
    s.env.deeds ++ (c.syncAttempts (rig.recorded.send s.disk t) t.key s.env).map (sending t) <+:
      (s.syncTarget rig.recorded t).env.deeds := by
  have first := deeds_sync rig c s.disk t t.key s.env
  have second := deeds_sync rig s.register.chain s.disk t t.key
    (c.sync (rig.recorded.send s.disk t) t.key s.env).2.2
  rw [first] at second
  rw [syncTarget_eq, passChains_of_some closed]
  exact ⟨_, second.symm⟩

/-- Between two records a transfer of one of some dumps to a target failed. -/
def Fails (t : Target) (ds : List Dump) (deeds deeds' : List Deed) : Prop :=
  ∃ more, deeds' = deeds ++ more ∧ ∃ d ∈ ds, ∃ before, Deed.sent t d before false ∈ more

theorem Fails.mono {t : Target} {ds : List Dump} {a b b' a' : List Deed} (h : Fails t ds b b')
    (front : a <+: b) (behind : b' <+: a') : Fails t ds a a' := by
  obtain ⟨more, rfl, d, hd, before, mem⟩ := h
  obtain ⟨first, rfl⟩ := front
  obtain ⟨last, rfl⟩ := behind
  exact ⟨first ++ more ++ last, by simp, d, hd, before, by simp [mem]⟩

theorem fails_or_isDrained {s : Site (Recorded σ)} {c : Chain}
    (closed : s.register.closed = some c) (ordered : c.HeldInOrder) (t : Target) :
    Fails t c.dumps s.env.deeds (s.syncTarget rig.recorded t).env.deeds ∨
      (c.sync (rig.recorded.send s.disk t) t.key s.env).2.1.IsDrained t.key := by
  refine (Chain.lost_or_isDrained ordered _ t.key s.env).imp_left ?_
  rintro ⟨a, mem, lost⟩
  obtain ⟨i, there, _⟩ := (Chain.passed_sync c _ t.key s.env).linked a mem
  have noted := List.mem_map_of_mem (f := sending t) mem
  rw [sending, lost] at noted
  have fails : Fails t c.dumps s.env.deeds _ :=
    ⟨_, rfl, a.dump, List.mem_of_getElem? there, a.before, noted⟩
  exact fails.mono List.prefix_rfl (deeds_syncTarget closed t)

/-- When the closed chain has been offered to some targets, each of them holds all of it, unless
a transfer to that target failed meanwhile. -/
theorem drained_syncTargets (ts : List Target) {s : Site (Recorded σ)} {c : Chain}
    (closed : s.register.closed = some c) (ordered : c.HeldInOrder) :
    ∃ s' last, ts.foldl (Site.syncTarget rig.recorded) s = s' ∧ s.env.deeds <+: s'.env.deeds ∧
      s'.register.closed = some last ∧ last.dumps = c.dumps ∧
      (∀ key, c.IsDrained key → last.IsDrained key) ∧
      ∀ t ∈ ts, Fails t c.dumps s.env.deeds s'.env.deeds ∨ last.IsDrained t.key := by
  induction ts generalizing s c with
  | nil => exact ⟨s, c, rfl, List.prefix_rfl, closed, rfl, fun _ => id, nofun⟩
  | cons t ts ih =>
      have passed := Chain.passed_sync c (rig.recorded.send s.disk t) t.key s.env
      have ordered' := ordered.perform (.sync t.key (rig.recorded.send s.disk t)) s.env
      have grows : s.env.deeds <+: (s.syncTarget rig.recorded t).env.deeds :=
        (List.prefix_append ..).trans (deeds_syncTarget closed t)
      obtain ⟨s', last, synced, later, there, dumps, keeps, others⟩ :=
        ih (closed_syncTarget closed t) ordered'
      refine ⟨s', last, synced, grows.trans later, there, dumps.trans passed.dumps,
        fun key drained => keeps key (passed.isDrained drained), ?_⟩
      intro x mem
      rcases List.mem_cons.1 mem with rfl | mem
      · exact (fails_or_isDrained closed ordered x).imp
          (fun fails => fails.mono List.prefix_rfl later) (keeps x.key)
      · refine (others x mem).imp_left fun fails => ?_
        rw [passed.dumps] at fails
        exact fails.mono grows List.prefix_rfl

/-! ## The tick that closes the next chain -/

/-- A tick takes a full dump and so puts another chain in the place of the closed one, which
after the last offer is `last`. -/
def Replaces (settings : Settings) (rig : Rig σ) (last : Chain) (w w' : Working σ) : Prop :=
  ∃ id plan taken, plan.dump.isFull = true ∧
    Takes settings rig.recorded id plan true w.site taken ∧
    (taken.replicated rig.recorded).register.closed = some last ∧
    w' = { w with site := (taken.replicated rig.recorded).modify Register.closeChain }

theorem ticks_of_perform {d : Dump}
    (h : Event.tick.perform settings rig w = some (.dumped (.ok (some d)), w')) :
    ∃ plan, plan.dump = d ∧ Ticks settings rig.recorded plan w.site w'.site ∧
      w' = { w with site := w'.site } := by
  cases perform_cases h with
  | chores quiet | eases quiet => exact absurd rfl (quiet d)
  | ticks ticks => exact ⟨_, rfl, ticks, rfl⟩

/-- When a node closes a chain while it has another closed one, every target that is registered
holds all dumps of the old one, unless a transfer of one of them to that target has failed
during this very tick. -/
theorem closed_chain_drained {c : Chain} {d : Dump} (reached : Reached settings rig w)
    (closed : w.closed = some c)
    (ticked : Event.tick.perform settings rig w = some (.dumped (.ok (some d)), w'))
    (full : d.isFull = true) :
    ∃ last, Replaces settings rig last w w' ∧ last.dumps = c.dumps ∧
      ∀ t ∈ w.site.register.targets, Fails t c.dumps w.deeds w'.deeds ∨
        ∀ l ∈ last.links, l.isHeldBy t.key = true := by
  obtain ⟨plan, rfl, ticks, same⟩ := ticks_of_perform ticked
  obtain ⟨id, taken, _, takes, site⟩ := ticks.replicates
  have ordered := reached.inOrder.closed c closed
  have kept : taken.register.closed = some c := takes.closed_eq.trans closed
  have targets : taken.register.targets = w.site.register.targets := by
    rw [Site.register, takes.node_eq]
    rfl
  obtain ⟨s', last, synced, _, there, dumps, _, drained⟩ :=
    drained_syncTargets taken.register.targets kept ordered
  have replicated : taken.replicated rig.recorded = s' := synced
  rw [replicated, closeBehind, if_pos full] at site
  refine ⟨last, ⟨id, plan, taken, full, takes, ?_, ?_⟩, dumps, ?_⟩
  · rw [replicated]
    exact there
  · rw [same, site, replicated]
  · intro t registered
    rw [← targets] at registered
    refine (drained t registered).imp_left fun fails => ?_
    have before : w.deeds <+: taken.env.deeds := by
      rw [takes.deeds_eq]
      exact List.prefix_append ..
    have after : w'.deeds = s'.env.deeds := congrArg (fun s => s.env.deeds) site
    rw [after]
    exact fails.mono before List.prefix_rfl

/-- A replica joins a node, which then takes so many dumps. -/
def sampleTicks (n : Nat) : List Event :=
  [.run sampleContainer (.ofText "/"), .message "h" (.join sampleJoin)] ++ .replicate n .tick

/-- The fifth dump closes the second chain. -/
theorem closed_chain_drained_sample :
    ∃ w w' c d t last, Reached .sample .sample w ∧ w.closed = some c ∧
      Event.tick.perform .sample .sample w = some (.dumped (.ok (some d)), w') ∧
      d.isFull = true ∧ t ∈ w.site.register.targets ∧ Replaces .sample .sample last w w' ∧
      c.length = 2 ∧ last.dumps = c.dumps ∧ ∀ l ∈ last.links, l.isHeldBy t.key = true := by
  let w : Working Unit := sampleAfter (sampleTicks 4)
  let w' : Working Unit := sampleAfter (sampleTicks 5)
  let loses : Deed → Bool
    | .sent _ _ _ arrived => !arrived
    | _ => false
  have nothing : w'.deeds.any loses = false := rfl
  have reached : Reached .sample .sample w := reached_sampleAfter _
  have ticked : Event.tick.perform .sample .sample w =
      some (.dumped (.ok (some ⟨.full, 5, 0⟩)), w') := rfl
  obtain ⟨last, replaces, dumps, drained⟩ := closed_chain_drained reached rfl ticked rfl
  have registered : Site.targetOf "h" sampleJoin ∈ w.site.register.targets :=
    List.mem_singleton_self _
  refine ⟨w, w', _, _, _, last, reached, rfl, ticked, rfl, registered, replaces, rfl, dumps, ?_⟩
  refine (drained _ registered).resolve_left ?_
  rintro ⟨more, deeds, d, _, before, mem⟩
  have noted : Deed.sent (Site.targetOf "h" sampleJoin) d before false ∈ w'.deeds := by
    rw [deeds]
    exact List.mem_append_right _ mem
  exact List.any_eq_false.1 nothing _ noted rfl

/-- A network that takes no dump anywhere. -/
def Rig.losing : Rig Unit :=
  { Rig.sample with send := fun _ _ _ _ s => (.error .unauthenticated, s) }

def sampleStuck (n : Nat) : Working Unit :=
  (sampleTicks n).foldl (fun w e => ((e.perform .sample .losing w).map Prod.snd).getD w)
    (.started sampleDisk ())

def stuckChain : Chain := ⟨[⟨⟨.pre, 1, 1⟩, []⟩, ⟨⟨.full, 2, 0⟩, []⟩]⟩

/-- If all transfers fail, the fifth dump puts the second chain in the place of the first one. The
replica holds nothing of that, and the node knows of its dumps no more. -/
theorem closed_chain_dropped :
    Reached .sample .losing (sampleStuck 4) ∧ (sampleStuck 4).closed = some stuckChain ∧
      Event.tick.perform .sample .losing (sampleStuck 4) =
        some (.dumped (.ok (some ⟨.full, 5, 0⟩)), sampleStuck 5) ∧
      Replaces .sample .losing stuckChain (sampleStuck 4) (sampleStuck 5) ∧
      Site.targetOf "h" sampleJoin ∈ (sampleStuck 4).site.register.targets ∧
      stuckChain.links.any (·.isHeldBy (Site.targetOf "h" sampleJoin).key) = false ∧
      (sampleStuck 5).chain.dumps = [] ∧
      (sampleStuck 5).closed.map Chain.dumps =
        some [⟨.pre, 3, 0⟩, ⟨.pre, 4, 1⟩, ⟨.full, 5, 0⟩] := by
  have reached : Reached .sample .losing (sampleStuck 4) :=
    (reached_started .sample .losing sampleDisk ()).after _
  have replaces : Replaces .sample .losing stuckChain (sampleStuck 4) (sampleStuck 5) :=
    ⟨sampleContainer, ⟨⟨.full, 5, 0⟩, some ⟨.pre, 4, 1⟩⟩, _, rfl, ⟨_, rfl, rfl⟩, rfl, rfl⟩
  exact ⟨reached, rfl, rfl, replaces, List.mem_singleton_self _, rfl, rfl, rfl⟩

end LiveMigration.Node
