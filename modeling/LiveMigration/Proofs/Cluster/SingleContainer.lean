import LiveMigration.Proofs.Cluster.Holding
import LiveMigration.Proofs.Node.HandoffAgreement

/-!
When there is only one copy of a container. As long as replicas notice silence only when no
other node has a stake in the container, at most one node does, whatever becomes of it. If a
replica may take its source for lost as soon as that has left its running status, a second copy
is started; and so it is for every single kind of stake that is overlooked.
-/

namespace LiveMigration

open Node

namespace Cluster

variable {ι σ : Type} [DecidableEq ι] {u : Setup ι σ} {c c' : Cluster ι σ}

/-- A node holds the container, or a handoff may still bring it there. -/
def Claims (u : Setup ι σ) (c : Cluster ι σ) (i : ι) : Prop := Holds (c.nodes i) ∨ c.Offers u i

theorem not_claims_of_stake? {i : ι} (h : c.stake? u i = none) : ¬ c.Claims u i := by
  unfold stake? at h
  split at h
  · cases h
  · rename_i absent
    exact fun claims => claims.elim (not_holds_of_stake? h) absent

/-- One node at most has a claim to the container. -/
structure Exclusive (u : Setup ι σ) (c : Cluster ι σ) : Prop where
  coherent : ∀ i, Coherent (c.nodes i)
  unused : ∀ i, Unused (c.nodes i)
  alone : ∀ i j, c.Claims u i → c.Claims u j → i = j

/-! ## One step -/

theorem nodes_act_of_ne {i j : ι} {w : Working σ} {mail : List (Target × Rpc.Migrate)}
    (h : j ≠ i) : (c.act i w mail).nodes j = c.nodes j := by
  unfold act
  exact Function.update_of_ne h w c.nodes

theorem nodes_act_self (c : Cluster ι σ) (i : ι) (w : Working σ)
    (mail : List (Target × Rpc.Migrate)) : (c.act i w mail).nodes i = w := by
  unfold act
  exact Function.update_self i w c.nodes

/-- What is kept by the node that acts is kept by all of them. -/
theorem forall_nodes_act {P : Working σ → Prop} {i : ι} {w : Working σ}
    (all : ∀ j, P (c.nodes j)) (h : P w) (mail : List (Target × Rpc.Migrate)) :
    ∀ j, P ((c.act i w mail).nodes j) := by
  intro j
  by_cases same : j = i
  · subst same
    rw [nodes_act_self]
    exact h
  · rw [nodes_act_of_ne same]
    exact all j

theorem claims_act_self {i : ι} {w : Working σ} {mail : List (Target × Rpc.Migrate)} :
    (c.act i w mail).Claims u i ↔ Holds w ∨
      w.status.isIdle = true ∧ ∃ p ∈ mail, u.place p.1.rpcAddress = some i := by
  rw [Claims, Offers, nodes_act_self]
  rfl

/-- Another node gets a claim only by mail. -/
theorem claims_of_act {i j : ι} {w : Working σ} {mail : List (Target × Rpc.Migrate)}
    (ne : j ≠ i) (old : ∀ p ∈ mail, u.place p.1.rpcAddress = some j → p ∈ c.mail)
    (claims : (c.act i w mail).Claims u j) : c.Claims u j := by
  rw [Claims, Offers, nodes_act_of_ne ne] at claims
  refine claims.imp id ?_
  rintro ⟨idle, p, mem, addressed⟩
  exact ⟨idle, p, old p mem addressed, addressed⟩

theorem mem_of_removed {α : Type} {l before after : List α} {p q : α}
    (h : l = before ++ p :: after) (mem : q ∈ before ++ after) : q ∈ l :=
  h ▸ ((List.sublist_cons_self p after).append_left before).subset mem

theorem Exclusive.claims_of_posted (x : Exclusive u c) {i k : ι} {e : Event} {a : Answer}
    {w : Working σ} {p : Target × Rpc.Migrate}
    (h : e.perform (u.settings i) (u.rig i) (c.nodes i) = some (a, w))
    (entering : (c.nodes i).activity = .entering .migrating) (given : ¬ Holds w)
    (claims : (c.act i w (c.mail ++ [p])).Claims u k) : u.place p.1.rpcAddress = some k := by
  by_contra elsewhere
  by_cases same : k = i
  · subst same
    obtain held | ⟨idle, -⟩ := claims_act_self.1 claims
    · exact given held
    · have before := isIdle_of_perform (x.coherent k) h idle
      rw [(x.coherent k).not_isIdle (by rw [entering]; rfl) (.inl rfl)] at before
      cases before
  · have old := claims_of_act same (fun q mem addressed => ?_) claims
    · exact same (x.alone k i old (.inl (.entering .migrating entering (.inl rfl))))
    · rcases List.mem_append.1 mem with mem | mem
      · exact mem
      · rw [List.mem_singleton.1 mem] at addressed
        exact absurd addressed elsewhere

theorem claims_of_delivered {i k : ι} {host : String} {t : Target}
    {m : Rpc.Migrate} {before after : List (Target × Rpc.Migrate)} {a : Answer} {w : Working σ}
    (mail : c.mail = before ++ (t, m) :: after) (addressed : u.place t.rpcAddress = some i)
    (h : (Event.message host (.migrate m)).perform (u.settings i) (u.rig i) (c.nodes i) =
      some (a, w)) (claims : (c.act i w (before ++ after)).Claims u k) : c.Claims u k := by
  by_cases same : k = i
  · subst same
    have answered : some (Answer.reply ((c.nodes k).site.onMigrate (u.settings k) m).1,
        { c.nodes k with site := ((c.nodes k).site.onMigrate (u.settings k) m).2 }) =
        some (a, w) := h
    obtain ⟨-, rfl⟩ := Prod.mk.inj (Option.some.inj answered)
    obtain refused | ⟨-, standing, -⟩ :=
      onMigrate_cases (u.settings k) m (c.nodes k).site
    · rw [refused] at claims
      obtain held | ⟨idle, q, mem, addressed⟩ := claims_act_self.1 claims
      · exact .inl held
      · exact .inr ⟨idle, q, mem_of_removed mail mem, addressed⟩
    · refine .inr ⟨by rw [Working.status, standing]; rfl, (t, m), ?_, addressed⟩
      rw [mail]
      exact List.mem_append_right _ (List.mem_cons_self ..)
  · exact claims_of_act same (fun q mem _ => mem_of_removed mail mem) claims

/-- A step leaves the claims as they are, or it leaves one of them at most. -/
theorem Exclusive.claims_step (x : Exclusive u c) (step : Step u (Unclaimed u) c c') :
    (∀ k, c'.Claims u k → c.Claims u k) ∨ ∃ only, ∀ k, c'.Claims u k → only = some k := by
  cases step with
  | @acts i e a w own silence h =>
      obtain none | ⟨⟨p, one⟩, entering, given⟩ := posted_cases (x.coherent i) h
      · rw [none, List.append_nil]
        have others {k : ι} (ne : k ≠ i) (claims : (c.act i w c.mail).Claims u k) :
            c.Claims u k :=
          claims_of_act ne (fun _ mem _ => mem) claims
        by_cases lost : e = .silence ∧ (c.nodes i).Watches
        · refine .inr ⟨some i, fun k claims => ?_⟩
          by_contra other
          have ne : k ≠ i := fun same => other (congrArg some same.symm)
          exact not_claims_of_stake? (silence lost.1 lost.2 k ne) (others ne claims)
        · refine .inl fun k claims => ?_
          by_cases same : k = i
          · subst same
            obtain held | ⟨idle, offered⟩ := claims_act_self.1 claims
            · exact .inl (held.of_own (x.coherent k) own (fun e w => lost ⟨e, w⟩) h)
            · exact .inr ⟨isIdle_of_perform (x.coherent k) h idle, offered⟩
          · exact others same claims
      · rw [one]
        exact .inr ⟨_, fun k claims => x.claims_of_posted h entering given claims⟩
  | delivers mail addressed h => exact .inl fun k => claims_of_delivered mail addressed h
  | loses mail =>
      refine .inl fun k claims => claims.imp id ?_
      rintro ⟨idle, q, mem, addressed⟩
      exact ⟨idle, q, mem_of_removed mail mem, addressed⟩

theorem Exclusive.step (x : Exclusive u c) (step : Step u (Unclaimed u) c c') :
    Exclusive u c' := by
  have alone (i j : ι) (hi : c'.Claims u i) (hj : c'.Claims u j) : i = j := by
    obtain fewer | ⟨only, same⟩ := x.claims_step step
    · exact x.alone i j (fewer i hi) (fewer j hj)
    · exact Option.some.inj ((same i hi).symm.trans (same j hj))
  cases step with
  | @acts i e a w own _ h =>
      have other (id : ContainerId) (bundle : Path) : e ≠ .run id bundle := by
        rintro rfl
        cases own
      exact ⟨forall_nodes_act x.coherent ((x.coherent i).step h) _,
        forall_nodes_act x.unused ((x.unused i).step (x.coherent i) h other) _, alone⟩
  | @delivers i _ _ _ _ _ _ _ _ _ h =>
      exact ⟨forall_nodes_act x.coherent ((x.coherent i).step h) _,
        forall_nodes_act x.unused ((x.unused i).step (x.coherent i) h nofun) _, alone⟩
  | loses => exact ⟨x.coherent, x.unused, alone⟩

theorem Exclusive.run (x : Exclusive u c) (run : Run u (Unclaimed u) c c') : Exclusive u c' := by
  induction run with
  | refl => exact x
  | tail _ one ih => exact ih.step one

/-! ## Along a run -/

theorem not_holds_started (disk : Disk) (env : σ) : ¬ Holds (.started disk env) := by
  intro held
  cases held with
  | alive h | engaged h | dumping h => cases h
  | entering e h => cases h

theorem Begins.exclusive {source : ι} (b : Begins u source c) : Exclusive u c := by
  have standing (i : ι) (P : Working σ → Prop) (first : P (c.nodes source))
      (other : ∀ disk env, P (.started disk env)) : P (c.nodes i) := by
    by_cases h : i = source
    · exact h ▸ first
    · obtain ⟨disk, env, started⟩ := b.others i h
      exact started ▸ other disk env
  have only (i : ι) (claims : c.Claims u i) : i = source := by
    by_contra ne
    obtain ⟨disk, env, started⟩ := b.others i ne
    rw [Claims, Offers, b.mail, started] at claims
    obtain held | ⟨-, p, mem, -⟩ := claims
    · exact not_holds_started disk env held
    · cases mem
  refine ⟨fun i => ?_, fun i => ?_, fun i j hi hj => (only i hi).trans (only j hj).symm⟩
  · exact standing i Coherent b.started.underway.1.toCoherent .started
  · refine standing i Unused ?_ fun _ _ _ => rfl
    rw [Unused, b.started.underway.2.1]
    exact nofun

theorem holds_of_restores {lost : Cluster ι σ → ι → Prop} {j : ι} (step : Step u lost c c')
    (restores : Restores (c.nodes j) (c'.nodes j)) : Holds (c.nodes j) := by
  have still : ¬ Restores (c.nodes j) (c.nodes j) := (Quiet.refl (c.nodes j).deeds).not_restores
  cases step with
  | @acts i e a w own _ h =>
      by_cases same : j = i
      · subst same
        rw [nodes_act_self] at restores
        refine .of_restores h ?_ restores
        rintro id bundle rfl
        cases own
      · rw [nodes_act_of_ne same] at restores
        exact absurd restores still
  | @delivers i _ _ _ _ _ _ _ _ _ h =>
      by_cases same : j = i
      · subst same
        rw [nodes_act_self] at restores
        exact .of_restores h nofun restores
      · rw [nodes_act_of_ne same] at restores
        exact absurd restores still
  | loses => exact absurd restores still

/-- If replicas notice silence only while nobody else has a stake in the container, it is never
restored while its process lives elsewhere. No two processes live at once, and none does while a
handoff is under way that may be accepted. -/
theorem single_live_container {source : ι} {c₀ : Cluster ι σ} (begins : Begins u source c₀) :
    SingleContainer u (Unclaimed u) c₀ ∧ ∀ c, Run u (Unclaimed u) c₀ c →
      (∀ i j, (c.nodes i).isAlive = true → (c.nodes j).isAlive = true → i = j) ∧
        ∀ j, c.Offers u j → ∀ i, (c.nodes i).isAlive = false := by
  refine ⟨?_, fun c run => ?_⟩
  · intro c c' run step j restores i ne
    have exclusive := begins.exclusive.run run
    have held := holds_of_restores step restores
    exact Bool.eq_false_iff.2 fun alive =>
      ne (exclusive.alone i j (.inl (.alive alive)) (.inl held))
  · have exclusive := begins.exclusive.run run
    refine ⟨fun i j hi hj => exclusive.alone i j (.inl (.alive hi)) (.inl (.alive hj)), ?_⟩
    intro j offered i
    refine Bool.eq_false_iff.2 fun alive => ?_
    obtain rfl := exclusive.alone i j (.inl (.alive alive)) (.inr offered)
    have up := (Bool.and_eq_true_iff.1 alive).2
    rw [exclusive.unused i offered.1] at up
    cases up

/-! ## Stakes that are overlooked -/

/-- When a replica may take its source for lost if one kind of stake is overlooked: the source
has left its running status, and no other node has a stake of another kind. -/
def Overlooking (u : Setup ι σ) (source : ι) (s : Stake) (c : Cluster ι σ) (j : ι) : Prop :=
  (c.nodes source).status ≠ .running ∧ ∀ i, i ≠ j → c.stake? u i = none ∨ c.stake? u i = some s

variable {lost lost' : Cluster ι σ → ι → Prop} {c₀ : Cluster ι σ}

theorem Step.mono (less : ∀ c j, lost' c j → lost c j) (step : Step u lost' c c') :
    Step u lost c c' := by
  cases step with
  | acts own silence h => exact .acts own (fun e w => less _ _ (silence e w)) h
  | delivers mail addressed h => exact .delivers mail addressed h
  | loses mail => exact .loses mail

theorem SingleContainer.mono (single : SingleContainer u lost c₀)
    (less : ∀ c j, lost' c j → lost c j) : SingleContainer u lost' c₀ := by
  intro c c' run step
  have run : Run u lost c₀ c := Relation.ReflTransGen.mono (fun _ _ => Step.mono less) _ _ run
  exact single c c' run (step.mono less)

def play (u : Setup ι σ) (i : ι) (c : Cluster ι σ) (e : Event) : Cluster ι σ :=
  match e.perform (u.settings i) (u.rig i) (c.nodes i) with
  | some (_, w) => c.act i w (c.mail ++ posted (c.nodes i) w)
  | none => c

/-- The only handoff that is under way arrives. -/
def arrive (u : Setup ι σ) (i : ι) (m : Rpc.Migrate) (c : Cluster ι σ) : Cluster ι σ :=
  match (Event.message "s" (.migrate m)).perform (u.settings i) (u.rig i) (c.nodes i) with
  | some (_, w) => c.act i w []
  | none => c

theorem run_play {i : ι} {e : Event} (own : e.isOwn = true) (silence : e = .silence → lost c i) :
    Run u lost c (play u i c e) := by
  unfold play
  split
  · rename_i h
    exact .single (.acts own (fun silent _ => silence silent) h)
  · exact .refl

/-- Whether an event may happen to a node at any time. -/
def isFree : Event → Bool
  | .silence => false
  | e => e.isOwn

theorem run_plays (i : ι) (es : List Event) (free : es.all isFree = true) (c : Cluster ι σ) :
    Run u lost c (es.foldl (play u i) c) := by
  induction es generalizing c with
  | nil => exact .refl
  | cons e es ih =>
      obtain ⟨one, rest⟩ := Bool.and_eq_true_iff.1 free
      have first : Run u lost c (play u i c e) := by
        cases e <;> first | exact run_play one nofun | cases one
      exact first.trans (ih rest _)

theorem run_arrive {i : ι} {t : Target} {m : Rpc.Migrate} (mail : c.mail = [(t, m)])
    (addressed : u.place t.rpcAddress = some i) : Run u lost c (arrive u i m c) := by
  unfold arrive
  split
  · rename_i h
    have step : Step u lost c (c.act i _ ([] ++ [])) := .delivers mail addressed h
    exact .single step
  · exact .refl

/-- A source and two replicas, of which the first one is to take the container over. -/
inductive Peer
  | source
  | first
  | other
  deriving DecidableEq

namespace Peer

instance decidableForall (p : Peer → Prop) [DecidablePred p] : Decidable (∀ i, p i) :=
  decidable_of_iff (p source ∧ p first ∧ p other)
    ⟨fun ⟨hs, hf, ho⟩ i => by cases i <;> assumption, fun h => ⟨h _, h _, h _⟩⟩

end Peer

def sampleSetup : Setup Peer Unit where
  settings := fun _ => .sample
  rig := fun _ => { Rig.sample with network := fun _ _ s => (.bytes Rpc.Reply.ack.encode, s) }
  place := fun address => if address = "h:3" then some .first else none

instance (c : Cluster Peer Unit) (j : Peer) : Decidable (Unclaimed sampleSetup c j) :=
  inferInstanceAs (Decidable (∀ i, i ≠ j → _))

instance (s : Stake) (c : Cluster Peer Unit) (j : Peer) :
    Decidable (Overlooking sampleSetup .source s c j) :=
  inferInstanceAs (Decidable (_ ∧ ∀ i, i ≠ j → _ ∨ _))

def sampleBundle : Path := .ofText "/"

/-- The source was just told to run its container, and the replicas have a dump of it. -/
def sample : Cluster Peer Unit where
  nodes := fun
    | .source => { Working.started sampleDisk () with
        site := ((Working.started sampleDisk ()).site.run (sampleSetup.rig .source).recorded
          sampleContainer sampleBundle).2 }
    | .first | .other => .started sampleDisk ()
  mail := []

theorem begins_sample : Begins sampleSetup .source sample := by
  refine ⟨⟨.started sampleDisk (), sampleContainer, sampleBundle, ⟨_, _, _, .start⟩, rfl, rfl⟩,
    ?_, rfl⟩
  intro i ne
  cases i with
  | source => exact absurd rfl ne
  | first | other => exact ⟨sampleDisk, (), rfl⟩

abbrev does (i : Peer) (es : List Event) (c : Cluster Peer Unit) : Cluster Peer Unit :=
  es.foldl (play sampleSetup i) c

def joining : List Event :=
  [.join "s" sampleBundle, .proceed, .proceed, .message "h" (.joinAck ⟨sampleContainer⟩),
    .proceed, .proceed, .proceed, .proceed]

/-- Both replicas stand by. -/
def joined : Cluster Peer Unit := does .other joining (does .first joining sample)

theorem run_joined {lost : Cluster Peer Unit → Peer → Prop} :
    Run sampleSetup lost sample joined :=
  (run_plays Peer.first _ rfl sample).trans (run_plays Peer.other _ rfl _)

/-- A replica takes its source for lost, and is about to restore the container. -/
def takesOver (i : Peer) (c : Cluster Peer Unit) : Cluster Peer Unit :=
  does i (List.replicate 6 .proceed) (play sampleSetup i c .silence)

theorem run_takesOver {lost : Cluster Peer Unit → Peer → Prop} {c : Cluster Peer Unit}
    {i : Peer} (allowed : lost c i) : Run sampleSetup lost c (takesOver i c) := by
  have silent : Run sampleSetup lost c (play sampleSetup i c .silence) :=
    run_play rfl fun _ => allowed
  exact silent.trans (run_plays i _ rfl _)

/-- The container of the source has exited. -/
def exited : Cluster Peer Unit :=
  does .source [.processEnd (.run sampleContainer sampleBundle) (.ok (.exited 0)), .supervise]
    joined

theorem run_exited {lost : Cluster Peer Unit → Peer → Prop} :
    Run sampleSetup lost sample exited :=
  run_joined.trans (run_plays Peer.source _ rfl joined)

/-- The next step of a node restores the container. -/
theorem restores_play {lost : Cluster Peer Unit → Peer → Prop} {c : Cluster Peer Unit} {j : Peer}
    (image : Path) (grown : ((play sampleSetup j c .proceed).nodes j).deeds =
      (c.nodes j).deeds ++ [.launched (.restore sampleContainer image sampleBundle)]) :
    Step sampleSetup lost c (play sampleSetup j c .proceed) ∧
      Restores (c.nodes j) ((play sampleSetup j c .proceed).nodes j) := by
  refine ⟨?_, _, _, _, _, grown, List.mem_singleton_self _⟩
  unfold play at grown ⊢
  split
  · rename_i h
    exact .acts (e := .proceed) rfl nofun h
  · rename_i none
    rw [none] at grown
    exact absurd (List.append_right_eq_self.1 grown.symm) (List.cons_ne_nil _ _)

/-- The source's process ends, and then a replica restores the container. -/
theorem single_live_container_sample : Begins sampleSetup .source sample ∧
    SingleContainer sampleSetup (Unclaimed sampleSetup) sample ∧
      ∃ c c', Run sampleSetup (Unclaimed sampleSetup) sample c ∧
        Step sampleSetup (Unclaimed sampleSetup) c c' ∧
        Restores (c.nodes .first) (c'.nodes .first) ∧ (c.nodes .source).isAlive = false := by
  have lost : Unclaimed sampleSetup exited .first := by decide +kernel
  have run := run_exited.trans (run_takesOver lost)
  obtain ⟨single, -⟩ := single_live_container begins_sample
  obtain ⟨step, restores⟩ := restores_play (c := takesOver .first exited) (j := .first)
    (.ofText "/d1") (by decide +kernel)
  exact ⟨begins_sample, single, _, _, run, step, restores,
    single _ _ run step .first restores .source nofun⟩

def asking : List Event :=
  [.message "h" (.join sampleJoin), .command (.migrate sampleContainer)]

def sampleTarget : Target := Site.targetOf "h" sampleJoin

/-- The source was asked for a handoff. -/
def asked : Cluster Peer Unit := does .source asking joined

/-- The handoff has failed, since its only target was dropped before it began. -/
def failed : Cluster Peer Unit :=
  does .source [.drop [sampleTarget], .proceed, .proceed, .proceed] asked

/-- The source after its final dumps, which the first replica holds. -/
def handing : Working Unit where
  activity := .handingOver sampleTarget sampleLast
  site :=
    let rig := (sampleSetup.rig .source).recorded
    let (_, s) := (asked.nodes .source).site.takeFinalDumps .sample rig sampleContainer
    (s.completeTarget rig sampleTarget).2

/-- The handoff is under way. -/
def handed : Cluster Peer Unit :=
  (does .source [.proceed] asked).act .source handing [(sampleTarget, sampleLast)]

def handedDisk : Disk :=
  .ofTree ⟨[([[0x70, 0x31]], .directory), ([[0x64, 0x32]], .directory)]⟩ []

/-- The handoff arrives at the first replica, behind the dumps. -/
def accepted (c : Cluster Peer Unit) : Cluster Peer Unit :=
  arrive sampleSetup .first sampleLast (does .first [.received handedDisk] c)

/-- The first replica runs the container, and the source has heard of it. -/
def moved : Cluster Peer Unit :=
  does .first [.proceed, .proceed, .proceed, .proceed] (does .source [.proceed]
    ((accepted handed).act .source ⟨.leaving .migrating .stopped, handing.site⟩ []))

section

variable {lost : Cluster Peer Unit → Peer → Prop}

theorem run_asked : Run sampleSetup lost sample asked :=
  run_joined.trans (run_plays Peer.source _ rfl joined)

theorem run_handed : Run sampleSetup lost sample handed := by
  have prepared : Event.proceed.perform (sampleSetup.settings .source) (sampleSetup.rig .source)
      ((does .source [.proceed] asked).nodes .source) = some (.nothing, handing) :=
    perform_prepared rfl
      (prepareHandoff_eq rfl rfl rfl rfl rfl (Rpc.Migrate.new_names sampleLast))
  exact (run_asked.trans (run_plays Peer.source _ rfl asked)).tail
    (.acts (e := .proceed) rfl nofun prepared)

theorem run_accepted {c : Cluster Peer Unit}
    (mail : (does .first [.received handedDisk] c).mail = [(sampleTarget, sampleLast)]) :
    Run sampleSetup lost c (accepted c) :=
  (run_plays Peer.first _ rfl c).trans (run_arrive mail rfl)

theorem run_moved : Run sampleSetup lost sample moved := by
  have arrived : Run sampleSetup lost sample (accepted handed) :=
    run_handed.trans (run_accepted (by decide +kernel))
  obtain ⟨line, written⟩ := Rpc.encode_migrate (m := sampleLast) rfl
  have whole : (Rpc.Message.migrate sampleLast).line = .ok (line ++ [Rpc.newline]) := by
    rw [Rpc.Message.line, written]
    rfl
  have reply : Rpc.replyOf sampleTarget.rpcAddress Settings.sample.limits.rpc
      (.bytes Rpc.Reply.ack.encode) = .ok .ack := by decide +kernel
  have acknowledged : Event.proceed.perform (sampleSetup.settings .source)
      (sampleSetup.rig .source) ((accepted handed).nodes .source) =
        some (.nothing, ⟨.leaving .migrating .stopped, handing.site⟩) := by
    refine (perform_handingOver (t := sampleTarget) (m := sampleLast) rfl whole).trans ?_
    exact congrArg
      (fun next => some (Answer.nothing, Working.mk (.leaving .migrating next) handing.site))
      (if_pos reply)
  have done := arrived.tail (.acts (e := .proceed) rfl nofun acknowledged)
  exact (done.trans (run_plays Peer.source _ rfl _)).trans (run_plays Peer.first _ rfl _)

/-- A restore begins while the process lives at another node. -/
theorem not_single {c : Cluster Peer Unit} (i j : Peer) (image : Path)
    (run : Run sampleSetup lost sample c) (ne : i ≠ j) (alive : (c.nodes i).isAlive = true)
    (grown : ((play sampleSetup j c .proceed).nodes j).deeds =
      (c.nodes j).deeds ++ [.launched (.restore sampleContainer image sampleBundle)]) :
    ¬ SingleContainer sampleSetup lost sample := by
  obtain ⟨step, restores⟩ := restores_play image grown
  intro single
  have dead := single _ _ run step j restores i ne
  rw [alive] at dead
  cases dead

end

/-- With nothing but the source's running status to go by, a replica starts a second copy. So it
does whatever kind of stake is overlooked: the target of a handoff already runs the container, or
the source has not taken the final dumps yet, or the handoff is on its way, or another replica is
about to restore the container, or a failed handoff has left it where it was. -/
theorem second_container : Begins sampleSetup .source sample ∧
    ¬ SingleContainer sampleSetup (fun c _ => (c.nodes .source).status ≠ .running) sample ∧
    ∀ s, ¬ SingleContainer sampleSetup (Overlooking sampleSetup .source s) sample := by
  have overlooked (s : Stake) :
      ¬ SingleContainer sampleSetup (Overlooking sampleSetup .source s) sample := by
    cases s with
    | running =>
        have lost : Overlooking sampleSetup .source .running moved .other := by decide +kernel
        have run := run_moved.trans (run_takesOver lost)
        exact not_single .first .other (.ofText "/d1") run nofun (by decide +kernel)
          (by decide +kernel)
    | dumping =>
        have lost : Overlooking sampleSetup .source .dumping asked .other := by decide +kernel
        have run := run_asked.trans (run_takesOver lost)
        exact not_single .source .other (.ofText "/d1") run nofun (by decide +kernel)
          (by decide +kernel)
    | offered =>
        have lost : Overlooking sampleSetup .source .offered handed .other := by decide +kernel
        have other := (run_handed.trans (run_takesOver lost)).trans
          (run_plays Peer.other [.proceed] rfl _)
        have both := (other.trans (run_accepted (by decide +kernel))).trans
          (run_plays Peer.first [.proceed, .proceed] rfl _)
        exact not_single .other .first (.ofText "/d2") both nofun (by decide +kernel)
          (by decide +kernel)
    | restoring =>
        have lost : Overlooking sampleSetup .source .restoring exited .first := by decide +kernel
        have first := run_exited.trans (run_takesOver lost)
        have again : Overlooking sampleSetup .source .restoring (takesOver .first exited) .other :=
          by decide +kernel
        have both := (first.trans (run_takesOver again)).trans
          (run_plays Peer.first [.proceed] rfl _)
        exact not_single .first .other (.ofText "/d1") both nofun (by decide +kernel)
          (by decide +kernel)
    | leftOver =>
        have lost : Overlooking sampleSetup .source .leftOver failed .other := by decide +kernel
        have run := (run_asked.trans (run_plays Peer.source _ rfl asked)).trans
          (run_takesOver (c := failed) lost)
        exact not_single .source .other (.ofText "/d1") run nofun (by decide +kernel)
          (by decide +kernel)
  exact ⟨begins_sample, fun single => overlooked .dumping (single.mono fun _ _ h => h.1),
    overlooked⟩

end Cluster

end LiveMigration
