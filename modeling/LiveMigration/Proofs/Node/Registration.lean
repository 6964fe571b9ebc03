import LiveMigration.Proofs.Node.Registry
import LiveMigration.Proofs.Node.Rejoin

/-!
What a registration is good for. Every transfer of a node goes to a target that is registered, or
to one that joins right now. A join of a key that is registered already is answered as any other,
and its transfers go to the address that it announces; but the registration stays as it was, so
that everything after it goes to the address of the first join.
-/

namespace LiveMigration.Node

variable {σ : Type} {settings : Settings} {rig : Rig σ} {w w' w₁ w₂ : Working σ}
  {ms : List (Moment σ)} {e : Event} {a : Answer} {t : Target}

/-! ## Where transfers go -/

/-- A record went on, and every transfer that was added to it went to such a target. -/
def Addressed (P : Target → Prop) (deeds deeds' : List Deed) : Prop :=
  ∃ more, deeds' = deeds ++ more ∧
    ∀ t d before arrived, Deed.sent t d before arrived ∈ more → P t

namespace Addressed

variable {P Q : Target → Prop} {x y z : List Deed}

theorem refl (x : List Deed) : Addressed P x x := ⟨[], (List.append_nil x).symm, by simp⟩

theorem of_eq (h : y = x) : Addressed P x y := h ▸ refl y

theorem trans (h : Addressed P x y) (k : Addressed P y z) : Addressed P x z := by
  obtain ⟨more, rfl, sent⟩ := h
  obtain ⟨rest, rfl, sent'⟩ := k
  refine ⟨more ++ rest, List.append_assoc x more rest, ?_⟩
  intro t d before arrived mem
  rcases List.mem_append.1 mem with mem | mem
  · exact sent t d before arrived mem
  · exact sent' t d before arrived mem

theorem single {d : Deed} (h : y = x ++ [d]) (other : ∀ t d' before arrived,
    d ≠ .sent t d' before arrived) : Addressed P x y := by
  refine ⟨[d], h, ?_⟩
  intro t d' before arrived mem
  exact absurd (List.mem_singleton.1 mem).symm (other t d' before arrived)

theorem mono (h : Addressed P x y) (weaker : ∀ t, P t → Q t) : Addressed Q x y := by
  obtain ⟨more, grown, sent⟩ := h
  exact ⟨more, grown, fun t d before arrived mem => weaker t (sent t d before arrived mem)⟩

end Addressed

theorem addressed_sending {x y : List Deed} {passes : List (Chain × List Chain.Attempt)}
    (h : y = x ++ passes.flatMap fun p => p.2.map (sending t)) : Addressed (· = t) x y := by
  refine ⟨_, h, ?_⟩
  intro t' d before arrived mem
  obtain ⟨p, _, mem⟩ := List.mem_flatMap.1 mem
  obtain ⟨_, _, same⟩ := List.mem_map.1 mem
  exact (Deed.sent.inj same).1.symm

theorem addressed_syncTargets (rig : Rig σ) (ts : List Target) (s : Site (Recorded σ)) :
    Addressed (· ∈ ts) s.env.deeds
      (ts.foldl (Site.syncTarget rig.recorded) s).env.deeds := by
  induction ts generalizing s with
  | nil => exact .refl _
  | cons t ts ih =>
      obtain ⟨_, visits⟩ := visits_syncTarget rig s t
      have first : Addressed (· ∈ t :: ts) _ _ :=
        (addressed_sending visits.deeds).mono fun x same => same ▸ List.mem_cons_self
      exact first.trans ((ih _).mono fun x => List.mem_cons_of_mem t)

theorem addressed_of_takeDump {P : Target → Prop} {id : ContainerId} {plan : Plan}
    {leaveRunning : Bool} {s s' : Site (Recorded σ)} {r : Except EngineError Unit}
    (h : s.takeDump settings rig.recorded id plan leaveRunning = (r, s')) :
    Addressed P s.env.deeds s'.env.deeds :=
  .single (deeds_of_takeDump h) nofun

theorem addressed_dumpTick (settings : Settings) (rig : Rig σ) (s : Site (Recorded σ)) :
    Addressed (· ∈ s.register.targets) s.env.deeds
      (s.dumpTick settings rig.recorded).2.env.deeds := by
  unfold Site.dumpTick
  split
  · exact .refl _
  split
  · exact .refl _
  split
  · exact .refl _
  rename_i plan _
  split
  · rename_i taken
    exact addressed_of_takeDump taken
  · rename_i s₁ taken
    have same : s₁.register.targets = s.register.targets :=
      congrArg Holdings.targets (Site.holdings_of_takeDump taken)
    have synced := addressed_syncTargets rig s.register.targets (s₁.modify (·.push plan.dump))
    have sent := (addressed_of_takeDump taken).trans synced
    rw [← same] at sent ⊢
    dsimp only
    split <;> exact sent

theorem addressed_takeFinalDumps {P : Target → Prop} (id : ContainerId) (s : Site (Recorded σ)) :
    Addressed P s.env.deeds (s.takeFinalDumps settings rig.recorded id).2.env.deeds := by
  unfold Site.takeFinalDumps
  split
  · exact .refl _
  split
  · rename_i taken
    exact addressed_of_takeDump taken
  rename_i s₁ taken
  have first : Addressed P s.env.deeds s₁.env.deeds := addressed_of_takeDump taken
  dsimp only
  split
  · exact first
  split <;> rename_i taken' <;>
    have last : Addressed P _ _ := addressed_of_takeDump taken' <;>
    exact first.trans last

theorem addressed_completeTarget (rig : Rig σ) (t : Target) (s : Site (Recorded σ)) :
    Addressed (· = t) s.env.deeds (s.completeTarget rig.recorded t).2.env.deeds := by
  refine ⟨_, deeds_sync rig s.register.chain s.disk t t.key s.env, ?_⟩
  intro t' d before arrived mem
  obtain ⟨_, _, same⟩ := List.mem_map.1 mem
  exact (Deed.sent.inj same).1.symm

theorem addressed_prepareHandoff (settings : Settings) (rig : Rig σ) (s : Site (Recorded σ)) :
    Addressed (· ∈ s.register.targets) s.env.deeds
      (s.prepareHandoff settings rig.recorded).2.env.deeds := by
  unfold Site.prepareHandoff
  split
  · rename_i id bundle t _ _ first
    have dumped : Addressed (· ∈ s.register.targets) s.env.deeds
        (s.takeFinalDumps settings rig.recorded id).2.env.deeds := addressed_takeFinalDumps id s
    split
    · rename_i h
      rwa [h] at dumped
    · rename_i s₁ h
      rw [h] at dumped
      have completed : Addressed (· ∈ s.register.targets) _ _ :=
        (addressed_completeTarget rig t s₁).mono fun x same =>
          same ▸ List.mem_of_mem_head? first
      split
      · rename_i h
        rw [h] at completed
        exact dumped.trans completed
      · rename_i h
        rw [h] at completed
        split <;> exact dumped.trans completed
  · exact .refl _
  · exact .refl _

theorem env_clearImage (image : Path) (s : Site σ) : (s.clearImage image).2.env = s.env := by
  unfold Site.clearImage
  split
  · split <;> rfl
  · rfl

theorem addressed_checkpoint {P : Target → Prop} (s : Site (Recorded σ)) :
    Addressed P s.env.deeds (s.checkpoint settings rig.recorded).2.env.deeds := by
  unfold Site.checkpoint
  split
  · exact .refl _
  split
  · exact .refl _
  split
  · exact .refl _
  rename_i d _
  have cleared := congrArg Recorded.deeds (env_clearImage (d.pathIn settings.dumpPath) s)
  split
  · rename_i h
    rw [h] at cleared
    exact .of_eq cleared
  · rename_i h
    rw [h] at cleared
    split <;> rename_i taken <;>
      exact (Addressed.of_eq cleared).trans (addressed_of_takeDump taken)

theorem addressed_terminate {P : Target → Prop} (s : Site (Recorded σ)) :
    Addressed P s.env.deeds (s.terminate rig.recorded).2.env.deeds := by
  unfold Site.terminate
  split
  · rename_i id _ _
    have deeds := deeds_callEngine rig (.kill id) s
    split <;> rename_i killed <;> rw [killed] at deeds <;> exact .single deeds nofun
  · exact .refl _

theorem deeds_call (rig : Rig σ) (address : String) (timeout : Nat) (m : Rpc.Message)
    (r : Recorded σ) : (Rpc.call rig.recorded.network address timeout m r).2.deeds = r.deeds := by
  unfold Rpc.call
  split <;> rfl

theorem deeds_silentTargets (settings : Settings) (rig : Rig σ) (ts : List Target)
    (r : Recorded σ) :
    (Site.silentTargets settings rig.recorded ts r).2.deeds = r.deeds := by
  induction ts generalizing r with
  | nil => rfl
  | cons t ts ih =>
      have pinged : (Rpc.callPing rig.recorded.network settings.limits t.rpcAddress r).2.deeds =
          r.deeds := deeds_call rig t.rpcAddress settings.limits.ping .ping r
      exact (ih _).trans pinged

theorem addressed_enter {e : Status} {s s' : Site (Recorded σ)} {a : Activity}
    (h : s.enter settings rig.recorded e = (some a, s')) :
    Addressed (· ∈ s.register.targets) s.env.deeds s'.env.deeds := by
  unfold Site.enter at h
  cases e with
  | stopped | failed | standBy | running | recovery =>
      cases h
      exact .refl _
  | migrating =>
      have prepared := addressed_prepareHandoff settings rig s
      dsimp only at h
      split at h <;> rename_i hp <;> rw [hp] at prepared <;> cases h <;> exact prepared
  | restoring =>
      cases h
      dsimp only
      split
      · exact .single rfl nofun
      · exact .refl _
  | joining =>
      dsimp only [Site.beginJoin] at h
      split at h <;> rename_i hb <;> obtain ⟨_, rfl⟩ := Prod.mk.inj hb
      · cases h
        exact .refl _
      · split at h <;> cases h <;> exact .refl _
  | terminated =>
      cases h
      exact addressed_terminate s

theorem env_finishJoin (result : Except RpcError ContainerId) (s : Site σ) :
    (s.finishJoin result).2.env = s.env := by
  cases result <;> rfl

theorem addressed_proceed {a a' : Activity} {s s' : Site (Recorded σ)}
    (h : s.proceed settings rig.recorded a = (some a', s')) :
    Addressed (· ∈ s.register.targets) s.env.deeds s'.env.deeds := by
  unfold Site.proceed at h
  cases a with
  | deciding | cadence | recovering =>
      cases h
      exact .refl _
  | entering e => exact addressed_enter h
  | standBy watching =>
      dsimp only at h
      split at h <;> cases h
      · split <;> exact .refl _
      · exact .refl _
  | handingOver t m =>
      dsimp only [Site.handOver] at h
      split at h <;> rename_i hc <;> obtain ⟨_, rfl⟩ := Prod.mk.inj hc <;> cases h <;>
        exact .of_eq (deeds_call rig t.rpcAddress _ _ s.env)
  | asking source m =>
      dsimp only at h
      split at h
      · cases h
        exact .of_eq (congrArg Recorded.deeds (env_finishJoin _ s))
      · have asked : (s.askSource settings rig.recorded source m).2.env.deeds = s.env.deeds :=
          deeds_call rig source _ _ s.env
        cases h
        exact .of_eq ((congrArg Recorded.deeds (env_finishJoin _ _)).trans asked)
  | recovered result =>
      cases h
      cases result <;> exact .refl _
  | leaving e n =>
      cases h
      exact .of_eq (congrArg Recorded.deeds (env_leave e n s))

theorem addressed_run {P : Target → Prop} (id : ContainerId) (bundle : Path)
    (s : Site (Recorded σ)) :
    Addressed P s.env.deeds (s.run rig.recorded id bundle).2.env.deeds := by
  obtain refused | ⟨_, _, env⟩ := Site.run_cases rig.recorded id bundle s
  · rw [refused]
    exact .refl _
  · exact .single (congrArg Recorded.deeds env) nofun

theorem Eases.addressed {P : Target → Prop} {s s' : Site (Recorded σ)} (h : Eases s s') :
    Addressed P s.env.deeds s'.env.deeds :=
  .of_eq (congrArg Recorded.deeds h.env)

theorem addressed_execute (settings : Settings) (rig : Rig σ) {P : Target → Prop}
    (c : Control.Command) (s : Site (Recorded σ)) :
    Addressed P s.env.deeds (s.execute settings rig.recorded c).2.env.deeds := by
  cases c with
  | checkpoint => exact addressed_checkpoint s
  | migrate id => exact (eases_requestMigration id s).addressed

theorem addressed_message (host : String) (m : Rpc.Message) (s : Site (Recorded σ)) :
    Addressed (fun t => t ∈ s.register.targets ∨ (Event.message host m).announced? = some t)
      s.env.deeds (s.handle settings rig.recorded host m).2.env.deeds := by
  cases m with
  | join m =>
      cases container : s.register.container with
      | none =>
          have refused := Site.onJoin_refused rig.recorded container host m
          exact .of_eq (congrArg (·.env.deeds) refused)
      | some id =>
          obtain ⟨_, visits⟩ := visits_onJoin rig host m container
          exact (addressed_sending visits.deeds).mono fun t same => .inr (congrArg some same.symm)
  | joinAck m =>
      refine .of_eq (congrArg Recorded.deeds ?_)
      dsimp only [Site.handle, Site.onJoinAck]
      split <;> rfl
  | ping => exact .refl _
  | migrate m =>
      obtain same | ⟨_, _, accepted, _⟩ := onMigrate_cases settings m s
      · exact .of_eq (congrArg (·.env.deeds) same)
      · exact .of_eq (congrArg (·.env.deeds) accepted)

/-- A dump is sent to a registered target, or to one that joins. -/
theorem addressed_of_perform (h : e.perform settings rig w = some (a, w')) :
    Addressed (fun t => t ∈ w.site.register.targets ∨ e.announced? = some t) w.deeds w'.deeds := by
  cases e with
  | proceed => exact (addressed_proceed (proceed_of_perform h)).mono fun _ => .inl
  | silence =>
      cases h
      exact .of_eq (congrArg Recorded.deeds (env_onSilence w.activity w.site))
  | tick =>
      have ticked := addressed_dumpTick settings rig w.site
      obtain ⟨_, _, performed, -, rfl⟩ := dumpTick_of_perform h
      rw [performed] at ticked
      exact ticked.mono fun _ => .inl
  | pingRound =>
      cases h
      exact .of_eq (deeds_silentTargets settings rig w.site.register.published w.site.env)
  | drop silent =>
      cases h
      exact .refl _
  | message host m =>
      cases h
      exact addressed_message host m w.site
  | command c =>
      have done : Addressed
          (fun t => t ∈ w.site.register.targets ∨ (Event.command c).announced? = some t) _ _ :=
        addressed_execute settings rig c w.site
      obtain ⟨_, _, performed, -, rfl⟩ := execute_of_perform h
      rw [performed] at done
      exact done
  | run id bundle =>
      cases h
      exact addressed_run id bundle w.site
  | join source bundle =>
      cases h
      exact (eases_join source bundle w.site).addressed
  | signal =>
      cases h
      exact (eases_onSignal w.site).addressed
  | processEnd l result =>
      cases h
      exact (eases_endProcess l result w.site).addressed
  | supervise =>
      cases h
      exact (eases_supervise w.site).addressed
  | received disk =>
      cases h
      exact .refl _

/-! ## Registering -/

/-- Whatever is registered with the key of a target is that target itself. -/
def Sole (t : Target) (r : Register) : Prop := ∀ x ∈ r.targets, x.key = t.key → x = t

theorem targets_of_joined {host : String} {m : Rpc.Join} {id : String}
    (joined : (Event.message host (.join m)).perform settings rig w =
      some (.reply (.joined id), w₁)) :
    w₁.site.register.targets =
      (w.site.register.addTarget (Site.targetOf host m)).2.targets := by
  obtain ⟨⟨container, assigned⟩, rfl⟩ := container_of_joined joined
  exact congrArg Holdings.targets (Site.holdings_onJoin assigned host m)

/-- Nobody with the key of a target announces something else. -/
def Faithful (t : Target) (ms : List (Moment σ)) : Prop :=
  ∀ x ∈ ms, ∀ t' ∈ x.event.announced?, t'.key = t.key → t' = t

theorem Course.addressed (course : Course settings rig w₁ ms w₂) (faithful : Faithful t ms)
    (sole : Sole t w₁.site.register) : Sole t w₂.site.register ∧
      Addressed (fun x => x.key = t.key → x = t) w₁.deeds w₂.deeds := by
  induction course with
  | start => exact ⟨sole, .refl _⟩
  | @next ms w w' e a _ h ih =>
      obtain ⟨sole, sent⟩ := ih fun x hx => faithful x (List.mem_append_left _ hx)
      have announces : ∀ x ∈ e.announced?, x.key = t.key → x = t :=
        faithful _ (List.mem_append_right _ (List.mem_singleton_self _))
      have known : ∀ x, x ∈ w.site.register.targets ∨ e.announced? = some x →
          x.key = t.key → x = t := by
        intro x h
        exact h.elim (sole x) (announces x)
      refine ⟨fun x there => known x ((enlists_of_perform h).mem_targets there), ?_⟩
      exact sent.trans ((addressed_of_perform h).mono known)

/-- A node that has answered a join has registered the target. If its key was registered before,
then that registration stands; only if it is the same as the new one, or if there was none, do all
transfers to the key that come later go to where the join has said, as long as other joins with
that key say the same. -/
theorem registration_of_joined {host : String} {m : Rpc.Join} {id : String} {t : Target}
    (reached : Reached settings rig w) (announced : Site.targetOf host m = t)
    (joined : (Event.message host (.join m)).perform settings rig w =
      some (.reply (.joined id), w₁)) :
    let before := w.site.register.registered t.key
    w₁.site.register.registered t.key = some (before.getD t) ∧
      (∀ x ∈ w₁.site.register.targets, x.key = t.key → x = before.getD t) ∧
      ((∀ x ∈ before, x = t) → ∀ {w₂ : Working σ} {ms : List (Moment σ)},
        Course settings rig w₁ ms w₂ → Faithful t ms → Sole t w₂.site.register ∧
          Addressed (fun x => x.key = t.key → x = t) w₁.deeds w₂.deeds) := by
  intro before
  have orderly := (reached.next joined).orderly
  have targets := targets_of_joined joined
  rw [announced] at targets
  have registered : w₁.site.register.registered t.key = some (before.getD t) := by
    rw [Register.registered, targets]
    exact Register.registered_addTarget
  obtain ⟨there, same⟩ := orderly.registered_eq_some.1 registered
  have only : ∀ x ∈ w₁.site.register.targets, x.key = t.key → x = before.getD t :=
    fun x hx key => orderly.eq_of_key there hx (key.trans same.symm)
  refine ⟨registered, only, ?_⟩
  intro unchanged w₂ ms course faithful
  refine course.addressed faithful fun x hx key => (only x hx key).trans ?_
  cases known : before with
  | none => rfl
  | some y => exact unchanged y known

/-- A replica joins for the first time, and the next tick sends its dump where it listens. -/
theorem registration_of_joined_sample :
    ∃ w w₁ w₂, Reached .sample .sample w ∧ w.site.register.registered sampleReplica.key = none ∧
      (Event.message "h" (.join sampleJoin)).perform .sample .sample w =
        some (.reply (.joined "c"), w₁) ∧
      w₁.site.register.registered sampleReplica.key = some sampleReplica ∧
      Event.tick.perform .sample .sample w₁ = some (.dumped (.ok (some sampleFirst)), w₂) ∧
      Sole sampleReplica w₂.site.register ∧
      Addressed (fun x => x.key = sampleReplica.key → x = sampleReplica) w₁.deeds w₂.deeds := by
  let es : List Event := [.run sampleContainer (.ofText "/")]
  let w₁ : Working Unit := sampleAfter (es ++ [.message "h" (.join sampleJoin)])
  let w₂ : Working Unit := sampleAfter (es ++ [.message "h" (.join sampleJoin), .tick])
  have joined : (Event.message "h" (.join sampleJoin)).perform .sample .sample (sampleAfter es) =
      some (.reply (.joined "c"), w₁) := rfl
  have ticked : Event.tick.perform .sample .sample w₁ =
      some (.dumped (.ok (some sampleFirst)), w₂) := rfl
  have course : Course .sample .sample w₁ [⟨.tick, _, w₁, w₂⟩] w₂ := .next .start ticked
  obtain ⟨registered, _, later⟩ := registration_of_joined (reached_sampleAfter es) rfl joined
  obtain ⟨sole, sent⟩ := later nofun course (by simp [Faithful, Event.announced?])
  exact ⟨_, w₁, w₂, reached_sampleAfter es, rfl, joined, registered, ticked, sole, sent⟩

/-- The same replica, when its listener for dumps and its dump root have moved. -/
def movedJoin : Rpc.Join :=
  { sampleJoin with dumpPath := ⟨[Path.slash, 0x72]⟩, filePort := ⟨5, by decide⟩, absolute := rfl }

/-- A replica joins again with another port for dumps and another dump root. It is answered, but
the old registration stays, and the next tick sends its dump to the old port. -/
theorem registration_outdated :
    ∃ w w₁ w₂, Reached .sample .sample w ∧
      (Site.targetOf "h" movedJoin).key = sampleReplica.key ∧
      (Event.message "h" (.join movedJoin)).perform .sample .sample w =
        some (.reply (.joined "c"), w₁) ∧
      w₁.site.register.targets = [sampleReplica] ∧
      sampleReplica.dumpPath ≠ movedJoin.dumpPath ∧ sampleReplica.filePort ≠ movedJoin.filePort ∧
      Event.tick.perform .sample .sample w₁ = some (.dumped (.ok (some sampleFirst)), w₂) ∧
      w₂.deeds = w₁.deeds ++
        [.called (dumpCall .sample sampleContainer ⟨sampleFirst, none⟩ true) true,
          .sent sampleReplica sampleFirst none true] := by
  let es : List Event := [.run sampleContainer (.ofText "/"), .message "h" (.join sampleJoin)]
  let again := es ++ [.message "h" (.join movedJoin)]
  exact ⟨sampleAfter es, sampleAfter again, sampleAfter (again ++ [.tick]), reached_sampleAfter es,
    rfl, rfl, rfl, by decide, by decide, rfl, rfl⟩

end LiveMigration.Node
