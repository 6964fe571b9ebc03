import LiveMigration.Proofs.Node.ClosedChain
import LiveMigration.Proofs.Node.HandoffAgreement

/-!
What becomes of the dumps that a join could not transfer. Only a transfer that arrives makes a
mark, whatever happens to a node, and a tick offers every target the dumps of both chains that
are not marked for it. But marks outlive the registration of a target, and a join sends without
looking at them.
-/

namespace LiveMigration.Node

variable {σ : Type} {settings : Settings} {rig : Rig σ} {w w' w₁ : Working σ}
  {key : String} {d : Dump}

/-! ## Where marks come from -/

/-- A dump is marked for a target in one of both chains. -/
def Site.Marks (s : Site σ) (key : String) (d : Dump) : Prop := ∃ c ∈ s.chains, c.Marked key d

theorem mem_chains {s : Site σ} {c : Chain} :
    c ∈ s.chains ↔ s.register.closed = some c ∨ c = s.register.chain := by
  simp [Site.chains]

theorem marks_iff {s : Site σ} : s.Marks key d ↔
    (∃ c, s.register.closed = some c ∧ c.Marked key d) ∨ s.register.chain.Marked key d := by
  simp only [Site.Marks, mem_chains, or_and_right, exists_or, exists_eq_left]

theorem Site.Marks.of_same {s s' : Site σ} (h : s'.Marks key d)
    (chain : s'.register.chain = s.register.chain)
    (closed : s'.register.closed = s.register.closed) : s.Marks key d := by
  rw [marks_iff, chain, closed] at h
  exact marks_iff.2 h

theorem not_marked_ofDumps (ds : List Dump) : ¬ (Chain.ofDumps ds).Marked key d := by
  rintro ⟨l, mem, _, held⟩
  obtain ⟨_, _, rfl⟩ := List.mem_map.1 mem
  cases held

theorem Delivered.behind {deeds : List Deed} (h : Delivered key d deeds) (first : List Deed) :
    Delivered key d (first ++ deeds) := by
  obtain ⟨t, before, same, mem⟩ := h
  exact ⟨t, before, same, List.mem_append_right first mem⟩

/-- Every mark of a target was there before, or the dump has arrived since. -/
def MarkedSince (key : String) (s₀ s : Site (Recorded σ)) : Prop :=
  ∃ since, s.env.deeds = s₀.env.deeds ++ since ∧
    ∀ d, s.Marks key d → s₀.Marks key d ∨ Delivered key d since

namespace MarkedSince

variable {s₀ s s' : Site (Recorded σ)}

theorem of_marks (grown : s₀.env.deeds <+: s.env.deeds)
    (marks : ∀ d, s.Marks key d → s₀.Marks key d) : MarkedSince key s₀ s := by
  obtain ⟨since, grown⟩ := grown
  exact ⟨since, grown.symm, fun d h => .inl (marks d h)⟩

theorem refl (s : Site (Recorded σ)) : MarkedSince key s s := .of_marks List.prefix_rfl fun _ => id

theorem trans (h : MarkedSince key s₀ s) (k : MarkedSince key s s') : MarkedSince key s₀ s' := by
  obtain ⟨since, grown, marks⟩ := h
  obtain ⟨further, grown', marks'⟩ := k
  refine ⟨since ++ further, by rw [grown', grown, List.append_assoc], ?_⟩
  intro d marked
  obtain earlier | arrived := marks' d marked
  · exact (marks d earlier).imp_right (·.mono (List.prefix_append ..))
  · exact .inr (arrived.behind since)

/-- A single transfer marks nothing but what has arrived by it. -/
theorem marked_of_sends (key : String) {disk : Disk} {t : Target} {a b : Chain × Recorded σ}
    (sends : Chain.Sends (rig.recorded.send disk t) t.key a b) :
    ∃ since, b.2.deeds = a.2.deeds ++ since ∧
      ∀ d, b.1.Marked key d → a.1.Marked key d ∨ Delivered key d since := by
  obtain ⟨since, grown⟩ := (quiet_of_sends sends).grows
  refine ⟨since, grown.symm, ?_⟩
  rintro _ ⟨r, mem, rfl, held⟩
  obtain ⟨l, mem, same, held⟩ | ⟨rfl, before, sent⟩ := sends.mark_cases r mem key held
  · exact .inl ⟨l, mem, same, held⟩
  · have deeds := deeds_of_send sent
    rw [← grown, List.append_right_inj] at deeds
    exact .inr ⟨t, before, rfl, by simp [deeds, Except.isOk, Except.toBool]⟩

theorem of_chore (done : Chore settings rig.recorded s s') : MarkedSince key s s' := by
  have grown := done.deeds_prefix
  cases done with
  | node register => exact .of_marks grown fun _ h => h.of_same register.chain register.closed
  | kill | cleared | network => exact .of_marks grown fun _ h => h.of_same rfl rfl
  | failedDump _ ht | checkpoint _ ht =>
      have same := congrArg Node.register (node_of_takeDump ht)
      exact .of_marks grown fun _ h =>
        h.of_same (congrArg Register.chain same) (congrArg Register.closed same)
  | sent sends =>
      obtain ⟨since, deeds, marked⟩ := marked_of_sends key sends
      refine ⟨since, deeds, fun d h => ?_⟩
      obtain kept | new := marks_iff.1 h
      · exact .inl (marks_iff.2 (.inl kept))
      · exact (marked d new).imp_left fun old => marks_iff.2 (.inr old)
  | sentClosed closed sends =>
      obtain ⟨since, deeds, marked⟩ := marked_of_sends key sends
      refine ⟨since, deeds, fun d h => ?_⟩
      obtain ⟨_, ⟨⟩, new⟩ | kept := marks_iff.1 h
      · exact (marked d new).imp_left fun old => marks_iff.2 (.inl ⟨_, closed, old⟩)
      · exact .inl (marks_iff.2 (.inr kept))

theorem of_takes {id : ContainerId} {plan : Plan} {leaveRunning : Bool}
    (takes : Takes settings rig.recorded id plan leaveRunning s s') : MarkedSince key s s' := by
  refine .of_marks takes.quiet.grows fun d h => ?_
  rw [marks_iff, Site.register, takes.node_eq] at h
  refine marks_iff.2 (h.imp_right ?_)
  rintro ⟨l, mem, same, held⟩
  rcases List.mem_append.1 mem with old | new
  · exact ⟨l, old, same, held⟩
  · rw [List.mem_singleton.1 new] at held
    cases held

theorem chores (h : MarkedSince key s₀ s) (done : Chores settings rig.recorded s s') :
    MarkedSince key s₀ s' := by
  induction done with
  | refl => exact h
  | tail _ one ih => exact ih.trans (of_chore one)

end MarkedSince

theorem enduring_markedSince (key : String) (s₀ : Site (Recorded σ)) :
    Enduring settings rig (MarkedSince key s₀) where
  chores done h := h.chores done
  takes takes h := h.trans (.of_takes takes)
  same h chain closed grown := h.trans (.of_marks grown fun _ marked => marked.of_same chain closed)
  fresh h chain closed grown := by
    refine h.trans (.of_marks grown fun d marked => ?_)
    rw [marks_iff, chain, closed] at marked
    obtain ⟨_, ⟨⟩, _⟩ | marked := marked
    exact absurd marked (not_marked_ofDumps _)
  closes h := by
    -- The marks of the old closed chain go with it; those of the new one were on the current chain.
    refine h.trans (.of_marks List.prefix_rfl fun d marked => ?_)
    obtain ⟨_, ⟨⟩, marked⟩ | ⟨_, ⟨⟩, _⟩ := marks_iff.1 marked
    exact marks_iff.2 (.inr marked)

/-! ## What a tick offers -/

/-- Some transfer of a dump to a target with this key was tried. -/
def Offered (key : String) (d : Dump) (deeds : List Deed) : Prop :=
  ∃ t before arrived, t.key = key ∧ Deed.sent t d before arrived ∈ deeds

/-- Some transfer of a dump to a target with this key failed. -/
def Lost (key : String) (d : Dump) (deeds : List Deed) : Prop :=
  ∃ t before, t.key = key ∧ Deed.sent t d before false ∈ deeds

/-- The dump at a place of a chain was offered to a target, or an older one of the chain was lost
on the way there. -/
def Tried (key : String) (c : Chain) (i : Nat) (deeds : List Deed) : Prop :=
  (∃ d ∈ c.dumps[i]?, Offered key d deeds) ∨ ∃ e ∈ c.dumps.take i, Lost key e deeds

theorem Tried.mono {c : Chain} {i : Nat} {deeds deeds' : List Deed} (h : Tried key c i deeds)
    (grown : deeds ⊆ deeds') : Tried key c i deeds' := by
  obtain ⟨d, there, t, before, arrived, same, mem⟩ | ⟨e, older, t, before, same, mem⟩ := h
  · exact .inl ⟨d, there, t, before, arrived, same, grown mem⟩
  · exact .inr ⟨e, older, t, before, same, grown mem⟩

theorem Tried.of_prefix {c c' : Chain} {i : Nat} {deeds : List Deed} (h : Tried key c' i deeds)
    (front : c.dumps <+: c'.dumps) (early : i < c.length) : Tried key c i deeds := by
  rw [← c.length_dumps] at early
  obtain ⟨more, front⟩ := front
  unfold Tried at h
  rwa [← front, List.getElem?_append_left early, List.take_append_of_le_length early.le] at h

theorem InOrder.of_mem {s : Site σ} {c : Chain} (h : InOrder s) (mem : c ∈ s.chains) :
    c.HeldInOrder := by
  obtain closed | rfl := mem_chains.1 mem
  · exact h.closed c closed
  · exact h.chain

section

variable {t : Target} {start : Chain → Nat} {passes : List (Chain × List Chain.Attempt)}
  {s s' : Site (Recorded σ)} {c : Chain} {i : Nat}

theorem Visits.passed_of_mem (visits : Visits t start passes s s') (mem : c ∈ s.chains) :
    ∃ p ∈ passes, p.1 ∈ s'.chains ∧ ∃ sent, c.Passed t.key (start c) sent p.2 p.1 := by
  obtain ⟨length, passed⟩ := List.forall₂_iff_get.1 visits.passed
  obtain ⟨⟨i, early⟩, rfl⟩ := List.get_of_mem mem
  have there : passes.get ⟨i, length ▸ early⟩ ∈ passes := List.get_mem ..
  refine ⟨_, there, ?_, passed i early (length ▸ early)⟩
  rw [visits.chains]
  exact List.mem_map_of_mem there

/-- A pass tries all dumps from the place on at which it began. -/
theorem Visits.tried (visits : Visits t start passes s s') (mem : c ∈ s.chains)
    (early : i < c.length) (late : start c ≤ i) :
    Tried t.key c i (passes.flatMap fun p => p.2.map (sending t)) := by
  obtain ⟨p, there, _, sent, passed⟩ := visits.passed_of_mem mem
  have noted {a : Chain.Attempt} (mem : a ∈ p.2) :
      Deed.sent t a.dump a.before a.arrived ∈ passes.flatMap fun p => p.2.map (sending t) :=
    List.mem_flatMap.2 ⟨p, there, List.mem_map_of_mem (f := sending t) mem⟩
  rw [← c.length_dumps] at early
  have place : c.dumps[i]? = some c.dumps[i] := List.getElem?_eq_getElem early
  obtain ⟨a, mem, same⟩ | ⟨e, older, a, mem, rfl, lost⟩ := passed.offered_or_lost place late
  · exact .inl ⟨_, place, t, a.before, a.arrived, rfl, same ▸ noted mem⟩
  · exact .inr ⟨a.dump, older, t, a.before, rfl, lost ▸ noted mem⟩

/-- A pass to one target leaves what another one misses. -/
theorem Visits.missing_of_ne (visits : Visits t start passes s s') (other : t.key ≠ key)
    (mem : c ∈ s.chains) (missing : ¬ c.IsHeld i key) :
    ∃ c' ∈ s'.chains, c'.dumps = c.dumps ∧ ¬ c'.IsHeld i key := by
  obtain ⟨p, _, there, sent, passed⟩ := visits.passed_of_mem mem
  refine ⟨p.1, there, passed.dumps, ?_⟩
  exact fun held => missing ((passed.apart i fun eq => other (Option.some.inj eq)).1 held)

/-- When all targets are brought up to date one after another, then each is offered the dumps
that are not marked for it. -/
theorem tried_syncTargets (rig : Rig σ) (ts : List Target) (ordered : InOrder s)
    (mem : c ∈ s.chains) (early : i < c.length) (missing : ¬ c.IsHeld i key)
    (registered : ∃ t ∈ ts, t.key = key) :
    ∃ now, (ts.foldl (Site.syncTarget rig.recorded) s).env.deeds = s.env.deeds ++ now ∧
      Tried key c i now := by
  induction ts generalizing s c with
  | nil => exact absurd registered (by simp)
  | cons t ts ih =>
      obtain ⟨passes, visits⟩ := visits_syncTarget rig s t
      -- No dump is taken, so these are chores for any settings.
      have chores : Chores .sample rig.recorded s (s.syncTarget rig.recorded t) :=
        chores_syncTarget s t
      by_cases same : t.key = key
      · subst same
        have late := Nat.not_lt.1 fun held =>
          missing ((Chain.isHeld_iff (ordered.of_mem mem) t.key i).2 held)
        have tried := visits.tried mem early late
        have others : Chores .sample rig.recorded _ _ :=
          chores_syncTargets ts (s.syncTarget rig.recorded t)
        obtain ⟨further, later⟩ := others.deeds_prefix
        refine ⟨_ ++ further, ?_, tried.mono (List.subset_append_left ..)⟩
        rw [List.foldl_cons, ← later, visits.deeds, List.append_assoc]
      · obtain ⟨c', mem', dumps, missing'⟩ := visits.missing_of_ne same mem missing
        have early' : i < c'.length := by rwa [← c'.length_dumps, dumps, c.length_dumps]
        have registered' : ∃ t ∈ ts, t.key = key := by
          obtain ⟨x, there, hx⟩ := registered
          rcases List.mem_cons.1 there with rfl | there
          · exact absurd hx same
          · exact ⟨x, there, hx⟩
        obtain ⟨since, grown⟩ := chores.deeds_prefix
        obtain ⟨now, later, tried⟩ := ih (ordered.chores chores) mem' early' missing' registered'
        refine ⟨since ++ now, ?_, ?_⟩
        · rw [List.foldl_cons, later, ← grown, List.append_assoc]
        · exact (tried.of_prefix (dumps ▸ List.prefix_rfl) early).mono
            (List.subset_append_right ..)

end

/-- The chains of a node are still there when it has taken a dump, with their marks. -/
theorem Takes.chain_of_mem {id : ContainerId} {plan : Plan} {leaveRunning : Bool} {s s' : Site σ}
    (takes : Takes settings rig id plan leaveRunning s s') {c : Chain} (mem : c ∈ s.chains) :
    ∃ c' ∈ s'.chains, c.dumps <+: c'.dumps ∧ ∀ i key, c'.IsHeld i key ↔ c.IsHeld i key := by
  have chain : s'.register.chain = s.register.chain.push plan.dump := by
    rw [Site.register, takes.node_eq]
    rfl
  obtain closed | rfl := mem_chains.1 mem
  · exact ⟨c, mem_chains.2 (.inl (takes.closed_eq.trans closed)), List.prefix_rfl,
      fun _ _ => Iff.rfl⟩
  · refine ⟨_, mem_chains.2 (.inr chain.symm), ?_, Chain.isHeld_push _ plan.dump⟩
    rw [Chain.dumps_push]
    exact List.prefix_append ..

/-- A tick that takes a dump offers every target the dumps that were not marked for it. -/
theorem tried_of_tick {p : Dump} {now : List Deed} (reached : Reached settings rig w)
    (ticked : Event.tick.perform settings rig w = some (.dumped (.ok (some p)), w'))
    (grown : w'.deeds = w.deeds ++ now) (registered : w.site.register.hasTarget key = true)
    {c : Chain} (mem : c ∈ w.site.chains) {i : Nat} (early : i < c.length)
    (missing : ¬ c.IsHeld i key) : Tried key c i now := by
  obtain ⟨plan, rfl, ticks, _⟩ := ticks_of_perform ticked
  obtain ⟨id, taken, _, takes, site⟩ := ticks.replicates
  obtain ⟨called, before⟩ := takes.quiet.grows
  obtain ⟨c', mem', front, marks⟩ := takes.chain_of_mem mem
  have targets : taken.register.targets = w.site.register.targets := by
    rw [Site.register, takes.node_eq]
    rfl
  have registered' : ∃ t ∈ taken.register.targets, t.key = key := by
    rw [targets]
    simpa [Register.hasTarget] using registered
  have longer := front.length_le
  rw [c.length_dumps, c'.length_dumps] at longer
  have missing' : ¬ c'.IsHeld i key := fun held => missing ((marks i key).1 held)
  obtain ⟨sent, synced, tried⟩ := tried_syncTargets rig taken.register.targets
    (reached.inOrder.takes takes) mem' (early.trans_le longer) missing' registered'
  have after : w'.deeds = (taken.replicated rig.recorded).env.deeds := by
    rw [Working.deeds, site, env_closeBehind]
  rw [after, Site.replicated, synced, ← before, List.append_assoc, List.append_cancel_left_eq]
    at grown
  rw [← grown]
  exact (tried.of_prefix front early).mono (List.subset_append_right ..)

/-- A dump is not marked for a target, and wherever it stands in a chain it has been tried to
send it. -/
def Retried (key : String) (d : Dump) (s : Site σ) (deeds : List Deed) : Prop :=
  ¬ s.Marks key d ∧ ∀ c ∈ s.chains, ∀ i, c.dumps[i]? = some d → Tried key c i deeds

theorem retried_of_tick {p : Dump} {now : List Deed} (reached : Reached settings rig w)
    (ticked : Event.tick.perform settings rig w = some (.dumped (.ok (some p)), w'))
    (grown : w'.deeds = w.deeds ++ now) (registered : w.site.register.hasTarget key = true)
    (unmarked : ¬ w.site.Marks key d) : Retried key d w.site now := by
  refine ⟨unmarked, ?_⟩
  intro c mem i there
  have early : i < c.length := c.length_dumps ▸ (List.getElem?_eq_some_iff.1 there).1
  have missing : ¬ c.IsHeld i key :=
    fun held => unmarked ⟨c, mem, Chain.marked_iff.2 ⟨i, there, held⟩⟩
  exact tried_of_tick reached ticked grown registered mem early missing

/-! ## Joining -/

theorem hasTarget_addTarget (r : Register) (t : Target) :
    (r.addTarget t).2.hasTarget t.key = true := by
  unfold Register.addTarget
  split
  · assumption
  · simp [Register.hasTarget, Register.setTargets]

theorem container_of_joined {host : String} {m : Rpc.Join} {id : String}
    (joined : (Event.message host (.join m)).perform settings rig w =
      some (.reply (.joined id), w')) :
    (∃ container, w.site.register.container = some container) ∧
      w' = { w with site := (w.site.onJoin rig.recorded host m).2 } := by
  have answered : some (Answer.reply (w.site.onJoin rig.recorded host m).1,
      { w with site := (w.site.onJoin rig.recorded host m).2 }) =
      some (.reply (.joined id), w') := joined
  obtain ⟨reply, rfl⟩ := Prod.mk.inj (Option.some.inj answered)
  refine ⟨?_, rfl⟩
  cases assigned : w.site.register.container with
  | some container => exact ⟨container, rfl⟩
  | none =>
      unfold Site.onJoin at reply
      rw [assigned] at reply
      cases reply

theorem Kept.chains {s s' : Site σ} (kept : Kept s s') :
    s'.chains.map Chain.dumps = s.chains.map Chain.dumps := by
  simp [Site.chains, kept.chain, ← Option.toList_map, kept.closed]

theorem marked_passes_iff {start : Chain → Nat} {cs : List Chain}
    {passes : List (Chain × List Chain.Attempt)} (passed : List.Forall₂
      (fun c p => ∃ sent, c.Passed key (start c) sent p.2 p.1) cs passes) :
    (∃ c ∈ passes.map Prod.fst, c.Marked key d) ↔ (∃ c ∈ cs, c.Marked key d) ∨
      ∃ p ∈ passes, ∃ a ∈ p.2, a.dump = d ∧ a.arrived = true := by
  induction passed with
  | nil => simp
  | cons first _ ih =>
      obtain ⟨sent, first⟩ := first
      simp only [List.map_cons, List.exists_mem_cons_iff, ih, first.marked_iff]
      exact or_or_or_comm

/-- After a pass over both chains those dumps are marked that were marked before or have
arrived. -/
theorem Visits.marks_iff {t : Target} {start : Chain → Nat}
    {passes : List (Chain × List Chain.Attempt)} {s s' : Site (Recorded σ)}
    (visits : Visits t start passes s s') : s'.Marks t.key d ↔ s.Marks t.key d ∨
      Delivered t.key d (passes.flatMap fun p => p.2.map (sending t)) := by
  rw [Site.Marks, visits.chains, marked_passes_iff visits.passed]
  refine or_congr_right ⟨?_, ?_⟩
  · rintro ⟨p, there, a, mem, rfl, arrived⟩
    have noted := List.mem_map_of_mem (f := sending t) mem
    rw [sending, arrived] at noted
    exact ⟨t, a.before, rfl, List.mem_flatMap.2 ⟨p, there, noted⟩⟩
  · rintro ⟨_, before, _, sent⟩
    obtain ⟨p, there, noted⟩ := List.mem_flatMap.1 sent
    obtain ⟨a, mem, same⟩ := List.mem_map.1 noted
    obtain ⟨_, rfl, _, arrived⟩ := Deed.sent.inj same
    exact ⟨p, there, a, mem, rfl, arrived⟩

/-- A node that has answered a join has registered the target, has tried to send it both chains as
a whole, and has marked what has arrived, besides what was marked before. Of all other dumps, as
long as they do not arrive, none is marked later on, and every tick that takes a dump offers them
to the target, if that is registered. -/
theorem join_retried {host : String} {m : Rpc.Join} {id : String} {t : Target}
    (reached : Reached settings rig w) (announced : Site.targetOf host m = t)
    (joined : (Event.message host (.join m)).perform settings rig w =
      some (.reply (.joined id), w₁)) :
    w₁.site.register.hasTarget t.key = true ∧
      w₁.site.chains.map Chain.dumps = w.site.chains.map Chain.dumps ∧
      ∃ sent, w₁.deeds = w.deeds ++ sent ∧
        (∀ c ∈ w.site.chains, ∀ i < c.length, Tried t.key c i sent) ∧
        (∀ d, w₁.site.Marks t.key d ↔ w.site.Marks t.key d ∨ Delivered t.key d sent) ∧
        ∀ {w₂ w₃ : Working σ} {ms : List (Moment σ)} {p : Dump}, Course settings rig w₁ ms w₂ →
          w₂.site.register.hasTarget t.key = true →
          Event.tick.perform settings rig w₂ = some (.dumped (.ok (some p)), w₃) →
          ∃ since now, w₂.deeds = w₁.deeds ++ since ∧ w₃.deeds = w₂.deeds ++ now ∧
            ∀ d, ¬ w.site.Marks t.key d → ¬ Delivered t.key d (sent ++ since) →
              Retried t.key d w₂.site now := by
  subst announced
  have reached₁ := reached.next joined
  obtain ⟨⟨container, assigned⟩, rfl⟩ := container_of_joined joined
  obtain ⟨passes, visits⟩ := visits_onJoin rig host m assigned
  have alike := alike_addTarget w.site.register (Site.targetOf host m)
  have chores : Chores settings rig.recorded _ _ := chores_onJoin host m w.site
  have chains : (w.site.modify fun r => (r.addTarget (Site.targetOf host m)).2).chains =
      w.site.chains := by
    simp only [Site.chains, Site.register_modify, alike.chain, alike.closed]
  have marks (d : Dump) := visits.marks_iff (d := d)
  simp only [Site.Marks, chains] at marks
  refine ⟨?_, chores.kept.chains, _, visits.deeds, ?_, marks, ?_⟩
  · rw [Register.hasTarget, visits.targets]
    exact hasTarget_addTarget ..
  · exact fun c mem i early => visits.tried (chains ▸ mem) early (Nat.zero_le i)
  intro w₂ w₃ ms p course registered ticked
  obtain ⟨since, grown, marked⟩ :=
    (enduring_markedSince _ _).course course reached₁.findsFresh (.refl _)
  obtain ⟨_, _, ticks, _⟩ := ticks_of_perform ticked
  obtain ⟨now, later⟩ := ticks.quiet.grows
  refine ⟨since, now, grown, later.symm, ?_⟩
  intro d unmarked missed
  refine retried_of_tick (reached₁.along course) ticked later.symm registered fun h => ?_
  obtain earlier | arrived := marked d h
  · obtain old | arrived := (marks d).1 earlier
    · exact unmarked old
    · exact missed (arrived.mono (List.prefix_append ..))
  · exact missed (arrived.behind _)

/-- A network that loses the transfers with certain numbers. -/
def Rig.flaky (lost : List Nat) : Rig Nat where
  engine := fun _ disk n => (.ok (), disk, n)
  launched := fun _ n => n
  send := fun _ _ _ _ n => (if n ∈ lost then .error .unauthenticated else .ok (), n + 1)
  network := fun _ _ n => (.late, n)

def flakyAfter (lost : List Nat) (es : List Event) : Working Nat :=
  es.foldl (fun w e => ((e.perform .sample (.flaky lost) w).map Prod.snd).getD w)
    (.started sampleDisk 0)

def sampleReplica : Target := Site.targetOf "h" sampleJoin

def sampleFirst : Dump := ⟨.pre, 1, 1⟩

/-- A replica joins and misses the only dump; the next tick sends it. -/
theorem join_retried_sample :
    ∃ w w₁ w₂ now, Reached .sample (.flaky [0]) w ∧
      (Event.message "h" (.join sampleJoin)).perform .sample (.flaky [0]) w =
        some (.reply (.joined "c"), w₁) ∧
      w₁.deeds = w.deeds ++ [.sent sampleReplica sampleFirst none false] ∧
      Event.tick.perform .sample (.flaky [0]) w₁ =
        some (.dumped (.ok (some ⟨.full, 2, 0⟩)), w₂) ∧
      w₂.deeds = w₁.deeds ++ now ∧ Offered sampleReplica.key sampleFirst now := by
  let es : List Event := [.run sampleContainer (.ofText "/"), .tick]
  let w : Working Nat := flakyAfter [0] es
  let w₁ : Working Nat := flakyAfter [0] (es ++ [.message "h" (.join sampleJoin)])
  let w₂ : Working Nat := flakyAfter [0] (es ++ [.message "h" (.join sampleJoin), .tick])
  have reached : Reached .sample (.flaky [0]) w :=
    (reached_started .sample (.flaky [0]) sampleDisk 0).after es
  have joined : (Event.message "h" (.join sampleJoin)).perform .sample (.flaky [0]) w =
      some (.reply (.joined "c"), w₁) := rfl
  have ticked : Event.tick.perform .sample (.flaky [0]) w₁ =
      some (.dumped (.ok (some ⟨.full, 2, 0⟩)), w₂) := rfl
  have lost : w₁.deeds = w.deeds ++ [.sent sampleReplica sampleFirst none false] := rfl
  obtain ⟨registered, _, sent, grown, _, _, retried⟩ := join_retried reached rfl joined
  obtain ⟨since, now, further, later, retried⟩ := retried .start registered ticked
  have unmarked : ¬ w.site.Marks sampleReplica.key sampleFirst := by
    intro h
    obtain ⟨_, ⟨⟩, _⟩ | ⟨l, mem, _, held⟩ := marks_iff.1 h
    rw [List.mem_singleton.1 mem] at held
    cases held
  have missed : ¬ Delivered sampleReplica.key sampleFirst (sent ++ since) := by
    have only : sent ++ since = [.sent sampleReplica sampleFirst none false] := by
      rw [← List.append_right_inj w.deeds, ← List.append_assoc, ← grown, ← further, lost]
    rw [only]
    rintro ⟨_, _, _, mem⟩
    cases List.mem_singleton.1 mem
  obtain ⟨_, tried⟩ := retried sampleFirst unmarked missed
  obtain ⟨d, ⟨⟩, offered⟩ | ⟨_, older, _⟩ := tried _ (mem_chains.2 (.inr rfl)) 0 rfl
  · exact ⟨w, w₁, w₂, now, reached, joined, lost, ticked, later, offered⟩
  · cases older

/-- A replica that has the only dump is removed and joins again, and the transfer fails. Its
mark is still there, and the next tick sends what comes after that dump. -/
theorem rejoin_not_retried :
    ∃ w w₁ w₂, Reached .sample (.flaky [1]) w ∧ w.site.register.targets = [] ∧
      (Event.message "h" (.join sampleJoin)).perform .sample (.flaky [1]) w =
        some (.reply (.joined "c"), w₁) ∧
      w₁.deeds = w.deeds ++ [.sent sampleReplica sampleFirst none false] ∧
      w₁.chain.dumps = [sampleFirst] ∧ w₁.site.Marks sampleReplica.key sampleFirst ∧
      Event.tick.perform .sample (.flaky [1]) w₁ =
        some (.dumped (.ok (some ⟨.full, 2, 0⟩)), w₂) ∧
      w₂.deeds = w₁.deeds ++
        [.called (dumpCall .sample sampleContainer ⟨⟨.full, 2, 0⟩, some sampleFirst⟩ true) true,
          .sent sampleReplica ⟨.full, 2, 0⟩ (some sampleFirst) true] := by
  let es : List Event := [.run sampleContainer (.ofText "/"), .tick,
    .message "h" (.join sampleJoin), .drop [sampleReplica]]
  let again := es ++ [.message "h" (.join sampleJoin)]
  have reached : Reached .sample (.flaky [1]) (flakyAfter [1] es) :=
    (reached_started .sample (.flaky [1]) sampleDisk 0).after es
  refine ⟨flakyAfter [1] es, flakyAfter [1] again, flakyAfter [1] (again ++ [.tick]), reached,
    rfl, rfl, rfl, rfl, ?_, rfl, rfl⟩
  exact ⟨_, mem_chains.2 (.inr rfl), _, List.mem_singleton_self _, rfl, rfl⟩

end LiveMigration.Node
