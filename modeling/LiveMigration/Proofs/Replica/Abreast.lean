import LiveMigration.Proofs.Replica.Following

/-!
A node and its replica, step by step. The node has an image of every dump in its ledger, its
chains follow the ledger, and a dump that is marked as held by the replica is there. A single
send keeps this up because it sends a dump only behind one that the replica holds.
-/

namespace LiveMigration.Node

open Lineage Transfer

variable {σ : Type} {settings : Settings} {rig : Rig σ} {mine : String → Prop}
  {replica : σ → Disk} {root : Path} {R k : Location} {plans plans' : List Plan}

/-- The images of a node: all those of its ledger. -/
structure Images (settings : Settings) (R : Location) (plans : List Plan) (d : Disk) : Prop where
  roots : d.tree.Roots d.cwd settings.dumpPath R
  images : ∀ p ∈ plans, Image d (R ++ [p.dump.entryName]) p.base.isSome

/-- Something was done to the place of a dump that is not in the ledger. -/
theorem Images.of_outside {d d' : Disk} {x : Dump} (h : Images settings R plans d)
    (other : ∀ p ∈ plans, p.dump.entryName ≠ x.entryName) (cwd : d'.cwd = d.cwd)
    (same : d'.tree.outside (R ++ [x.entryName]) = d.tree.outside (R ++ [x.entryName])) :
    Images settings R plans d' := by
  refine ⟨?_, fun p mem => (h.images p mem).of_outside (other p mem) same⟩
  rw [cwd]
  exact h.roots.of_outside same

/-- The dumps of a chain that are marked as held by the replica are there. -/
def Marked (mine : String → Prop) (d : Disk) (k : Location) (c : Chain) : Prop :=
  ∀ l ∈ c.links, ∀ key, mine key → l.isHeldBy key = true → Landed d k l.dump

theorem Marked.mono {d d' : Disk} {c : Chain} (h : Marked mine d k c)
    (still : ∀ x, Landed d k x → Landed d' k x) : Marked mine d' k c :=
  fun l hl key hk held => still l.dump (h l hl key hk held)

theorem Marked.push {d : Disk} {c : Chain} (h : Marked mine d k c) (x : Dump) :
    Marked mine d k (c.push x) := by
  intro l hl key hk held
  rcases List.mem_append.1 hl with hl | hl
  · exact h l hl key hk held
  · rw [List.mem_singleton.1 hl] at held
    cases held

/-- A replica that went on. -/
structure Goes (plans : List Plan) (root : Path) (k : Location) (d d' : Disk) : Prop where
  replica : Replica plans d' root k
  still : ∀ x, Landed d k x → Landed d' k x

theorem Goes.of_eq {d d' : Disk} (r : Replica plans d root k) (same : d' = d) :
    Goes plans root k d d' := by
  subst same
  exact ⟨r, fun _ landed => landed⟩

/-- What one send does to the replica and to the marks of its chain. -/
theorem goes_of_sends (follows : Follows settings rig mine replica root R)
    (ledger : Ledger plans) {disk : Disk} (images : Images settings R plans disk) {t : Target}
    {a b : Chain × σ} (sends : Chain.Sends (rig.send disk t) t.key a b)
    (traced : Traced plans a.1.dumps) (marked : Marked mine (replica a.2) k a.1)
    (r : Replica plans (replica a.2) root k) :
    Goes plans root k (replica a.2) (replica b.2) ∧ Marked mine (replica b.2) k b.1 := by
  cases sends with
  | lost _ sent =>
      have same := follows.lost _ _ _ _ _ _ _ sent
      exact ⟨.of_eq r same, by rw [same]; exact marked⟩
  | arrived front sent =>
      rename_i kept rest l s s'
      dsimp only at traced marked r ⊢
      by_cases listed : mine t.key
      · have cut : Chain.dumps ⟨kept ++ l :: rest⟩ =
            kept.map Link.dump ++ l.dump :: rest.map Link.dump := List.map_append
        have planned : ⟨l.dump, kept.getLast?.map Link.dump⟩ ∈ plans := by
          rw [← List.getLast?_map]
          exact traced _ _ _ cut
        have before : ∀ b ∈ kept.getLast?.map Link.dump, Landed (replica s) k b := by
          intro b hb
          obtain ⟨last, hl, rfl⟩ := Option.map_eq_some_iff.1 hb
          exact marked last (List.mem_append_left _ (List.mem_of_getLast? hl)) t.key listed
            (front last hl)
        have sound : ∀ e, (replica s).tree.get? (k ++ [l.dump.entryName]) = some e →
            e = .directory := fun e found => (r.landed l.dump.entryName e found).1
        have image := images.images _ planned
        have w := follows.arrives listed sent images.roots.leads image (r.within l.dump) r.roots
          sound
        have still : ∀ x, Landed (replica s) k x → Landed (replica s') k x :=
          fun x landed => Replica.landed_of_within w landed
        refine ⟨⟨r.lands ledger planned before w, still⟩, ?_⟩
        intro m hm key hk held
        rcases List.mem_append.1 hm with hm | hm
        · exact still _ (marked m (List.mem_append_left _ hm) key hk held)
        rcases List.mem_cons.1 hm with rfl | hm
        · rw [Chain.dump_mark]
          exact w.place
        · exact still _ (marked m (by simp [hm]) key hk held)
      · have same : replica s' = replica s := by
          have := follows.others disk t l.dump (kept.getLast?.map Link.dump) s listed
          rw [sent] at this
          exact this
        refine ⟨.of_eq r same, ?_⟩
        rw [same]
        intro m hm key hk held
        rcases List.mem_append.1 hm with hm | hm
        · exact marked m (List.mem_append_left _ hm) key hk held
        rcases List.mem_cons.1 hm with rfl | hm
        · rw [Chain.dump_mark]
          obtain held | rfl := (Chain.isHeldBy_mark l t.key key).1 held
          · exact marked l (by simp) key hk held
          · exact absurd hk listed
        · exact marked m (by simp [hm]) key hk held

/-- A node that has all of its ledger, and a replica with some of it. -/
structure Abreast (settings : Settings) (mine : String → Prop) (replica : σ → Disk)
    (root : Path) (R k : Location) (plans : List Plan) (s : Site σ) : Prop where
  ledger : Ledger plans
  bound : ∀ p ∈ plans, p.dump.sequence.toNat < s.nextSequence
  images : Images settings R plans s.disk
  copy : Replica plans (replica s.env) root k
  chain : Traced plans s.register.chain.dumps ∧ Marked mine (replica s.env) k s.register.chain
  closed : ∀ c ∈ s.register.closed, Traced plans c.dumps ∧ Marked mine (replica s.env) k c

namespace Abreast

variable {s s' : Site σ}

theorem aside (h : Abreast settings mine replica root R k plans s)
    (chain : s'.register.chain = s.register.chain)
    (closed : s'.register.closed = s.register.closed) (images : Images settings R plans s'.disk)
    (same : replica s'.env = replica s.env) :
    Abreast settings mine replica root R k plans s' := by
  refine ⟨h.ledger, ?_, images, ?_, ?_, ?_⟩
  · unfold Site.nextSequence
    rw [chain, closed]
    exact h.bound
  · rw [same]
    exact h.copy
  · rw [chain, same]
    exact h.chain
  · rw [closed, same]
    exact h.closed

/-- A number that comes after all others makes a new name. -/
theorem other_of_next (h : Abreast settings mine replica root R k plans s) {x : Dump}
    (next : x.sequence.toNat = s.nextSequence) :
    ∀ p ∈ plans, p.dump.entryName ≠ x.entryName := by
  intro p mem same
  have := h.bound p mem
  rw [← next, (Dump.entryName_inj.1 same).2] at this
  exact Nat.lt_irrefl _ this

theorem other_of_checkpoint (ledger : Ledger plans) {x : Dump} (kind : x.kind = .checkpoint) :
    ∀ p ∈ plans, p.dump.entryName ≠ x.entryName := by
  intro p mem same
  exact ledger.regular p mem ((Dump.entryName_inj.1 same).1.trans kind)

theorem images_of_takeDump (engine : TakesImages settings rig R)
    (images : Images settings R plans s.disk) {id : ContainerId} {plan : Plan}
    {leaveRunning : Bool} {r : Except EngineError Unit}
    (other : ∀ p ∈ plans, p.dump.entryName ≠ plan.dump.entryName)
    (h : s.takeDump settings rig id plan leaveRunning = (r, s')) :
    Images settings R plans s'.disk ∧
      (r = .ok () → Image s'.disk (R ++ [plan.dump.entryName]) plan.base.isSome) := by
  have asked : (dumpCall settings id plan leaveRunning).image? =
      some (plan.dump.pathIn settings.dumpPath, plan.parentPath) := by
    unfold dumpCall
    cases plan.dump.kind <;> rfl
  have called : s.callEngine rig (dumpCall settings id plan leaveRunning) = (r, s') := h
  obtain ⟨result, rfl⟩ := Prod.mk.inj called
  obtain ⟨cwd, same⟩ := engine.writes _ _ _ s.disk s.env asked images.roots
  refine ⟨images.of_outside other cwd same, ?_⟩
  intro ok
  have made := engine.makes _ _ _ s.disk s.env asked images.roots (result.trans ok)
  rw [show plan.parentPath.isSome = plan.base.isSome from Option.isSome_map] at made
  exact made

theorem env_of_takeDump (aside : Aside rig mine replica) {id : ContainerId} {plan : Plan}
    {leaveRunning : Bool} {r : Except EngineError Unit}
    (h : s.takeDump settings rig id plan leaveRunning = (r, s')) :
    replica s'.env = replica s.env := by
  have called : s.callEngine rig (dumpCall settings id plan leaveRunning) = (r, s') := h
  obtain ⟨_, rfl⟩ := Prod.mk.inj called
  exact aside.engine _ s.disk s.env

variable (engine : TakesImages settings rig R)
  (follows : Follows settings rig mine replica root R)

include engine follows

theorem chore (h : Abreast settings mine replica root R k plans s)
    (done : Chore settings rig s s') : Abreast settings mine replica root R k plans s' := by
  have bound : ∀ p ∈ plans, p.dump.sequence.toNat < s'.nextSequence := by
    unfold Site.nextSequence Cadence.lastSequence Cadence.checkpointBase
    rw [done.kept.position]
    exact h.bound
  cases done with
  | node register => exact h.aside register.chain register.closed h.images rfl
  | kill id =>
      have disk : (s.callEngine rig (.kill id)).2.disk = s.disk := engine.kill id s.disk s.env
      refine h.aside rfl rfl ?_ (follows.engine _ _ _)
      rw [disk]
      exact h.images
  | failedDump next failed =>
      have node := node_of_takeDump failed
      have images := (images_of_takeDump engine h.images (h.other_of_next next) failed).1
      exact h.aside (by rw [Site.register, node]) (by rw [Site.register, node]) images
        (env_of_takeDump follows.toAside failed)
  | checkpoint kind taken =>
      have node := node_of_takeDump taken
      have images := (images_of_takeDump engine h.images
        (other_of_checkpoint h.ledger kind) taken).1
      exact h.aside (by rw [Site.register, node]) (by rw [Site.register, node]) images
        (env_of_takeDump follows.toAside taken)
  | cleared kind removed =>
      obtain ⟨cwd, same⟩ := Disk.removeAll_cases h.images.roots.leads
        (Dump.ordinary_entryName _) removed
      exact h.aside rfl rfl
        (h.images.of_outside (other_of_checkpoint h.ledger kind) cwd same) rfl
  | network address line => exact h.aside rfl rfl h.images (follows.network _ _ _)
  | sent sends =>
      obtain ⟨goes, marked⟩ := goes_of_sends follows h.ledger h.images sends h.chain.1 h.chain.2
        h.copy
      refine ⟨h.ledger, bound, h.images, goes.replica, ⟨?_, marked⟩, ?_⟩
      · rw [Site.register_modify, sends.dumps_eq]
        exact h.chain.1
      · exact fun c hc => ⟨(h.closed c hc).1, (h.closed c hc).2.mono goes.still⟩
  | sentClosed closed sends =>
      obtain ⟨traced, held⟩ := h.closed _ closed
      obtain ⟨goes, marked⟩ := goes_of_sends follows h.ledger h.images sends traced held h.copy
      refine ⟨h.ledger, bound, h.images, goes.replica, ⟨h.chain.1, h.chain.2.mono goes.still⟩, ?_⟩
      rintro c ⟨⟩
      rw [sends.dumps_eq]
      exact ⟨traced, marked⟩

theorem chores (h : Abreast settings mine replica root R k plans s)
    (done : Chores settings rig s s') : Abreast settings mine replica root R k plans s' := by
  induction done with
  | refl => exact h
  | tail _ one ih => exact ih.chore engine follows one

/-- A dump that is taken goes into the ledger. -/
theorem takes (h : Abreast settings mine replica root R k plans s) {id : ContainerId}
    {plan : Plan} {leaveRunning : Bool} (base : plan.base = s.register.chain.latest?)
    (regular : plan.dump.kind ≠ .checkpoint) (next : plan.dump.sequence.toNat = s.nextSequence)
    (takes : Takes settings rig id plan leaveRunning s s') :
    Abreast settings mine replica root R k (plans ++ [plan]) s' := by
  have dumps := takes.dumps_eq
  have closed := takes.closed_eq
  have latest : s'.register.chain.latest? = some plan.dump := by
    rw [Chain.latest?_eq, dumps, List.getLast?_concat]
  have chain : s'.register.chain = s.register.chain.push plan.dump := by
    rw [Site.register, takes.node_eq]
    rfl
  obtain ⟨taken, ht, rfl⟩ := takes
  have other := h.other_of_next next
  obtain ⟨images, made⟩ := images_of_takeDump engine h.images other ht
  have same : replica taken.env = replica s.env := env_of_takeDump follows.toAside ht
  have grown : plans ⊆ plans ++ [plan] := List.subset_append_left ..
  refine ⟨?_, ?_, ⟨images.roots, ?_⟩, ?_, ⟨?_, ?_⟩, ?_⟩
  · refine h.ledger.concat ?_ ?_ regular
    · intro q hq
      rw [UInt64.lt_iff_toNat_lt, next]
      exact h.bound q hq
    · intro b hb
      rw [base] at hb
      rw [next, Site.nextSequence, Cadence.lastSequence_eq hb]
  · have last : Site.nextSequence (taken.modify (·.push plan.dump)) =
        plan.dump.sequence.toNat + 1 := congrArg (· + 1) (Cadence.lastSequence_eq latest)
    rw [last]
    intro p mem
    rcases List.mem_append.1 mem with mem | mem
    · have := h.bound p mem
      omega
    · rw [List.mem_singleton.1 mem]
      omega
  · intro p mem
    rcases List.mem_append.1 mem with mem | mem
    · exact images.images p mem
    · rw [List.mem_singleton.1 mem]
      exact made rfl
  · exact same ▸ h.copy.mono grown
  · rw [dumps]
    refine (h.chain.1.mono grown).concat ?_
    rw [← Chain.latest?_eq, ← base]
    exact List.mem_append_right _ (List.mem_singleton.2 rfl)
  · rw [chain]
    exact same ▸ h.chain.2.push _
  · rw [closed]
    exact fun c hc => ⟨(h.closed c hc).1.mono grown, same ▸ (h.closed c hc).2⟩

omit engine follows in
/-- A full dump closes its chain. -/
theorem closeBehind (h : Abreast settings mine replica root R k plans s) {x : Dump}
    (latest : s.register.chain.latest? = some x) :
    Abreast settings mine replica root R k plans (Node.closeBehind x s) := by
  unfold Node.closeBehind
  split
  · refine ⟨h.ledger, ?_, h.images, h.copy, ⟨.empty plans, nofun⟩, ?_⟩
    · have next : (s.modify Register.closeChain).nextSequence = s.nextSequence := by
        have before : Cadence.lastSequence s.register.chain s.register.closed =
            x.sequence.toNat := Cadence.lastSequence_eq latest
        have after : Cadence.lastSequence Chain.empty (some s.register.chain) =
            x.sequence.toNat := Cadence.lastSequence_of_closing rfl latest
        exact congrArg (· + 1) (after.trans before.symm)
      rw [next]
      exact h.bound
    · rintro c ⟨⟩
      exact h.chain
  · exact h

end Abreast

end LiveMigration.Node
