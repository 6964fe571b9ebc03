import LiveMigration.Node.Handlers
import LiveMigration.Node.Remote
import LiveMigration.Proofs.Cadence.Position

/-!
What a node does besides its dumps. A chore takes no dump of a chain and changes neither the
status nor the processes; it may mark dumps as held by a target, fail to take a dump, or take
a checkpoint. Answering most requests, pinging and replicating come down to chores.
-/

namespace LiveMigration.Node

open Relation

variable {σ : Type} {settings : Settings} {rig : Rig σ}

/-- The number that comes after those of the dumps of a node. -/
def Site.nextSequence (s : Site σ) : Nat :=
  Cadence.lastSequence s.register.chain s.register.closed + 1

/-- Two registers that agree in what the chores of a node leave alone. -/
structure Alike (r r' : Register) : Prop where
  status : r'.status = r.status
  chain : r'.chain = r.chain
  closed : r'.closed = r.closed

theorem Alike.refl (r : Register) : Alike r r := ⟨rfl, rfl, rfl⟩

theorem Alike.trans {a b c : Register} (h : Alike a b) (k : Alike b c) : Alike a c :=
  ⟨k.status.trans h.status, k.chain.trans h.chain, k.closed.trans h.closed⟩

inductive Chore (settings : Settings) (rig : Rig σ) : Site σ → Site σ → Prop
  | node {s : Site σ} {n : Node} (register : Alike s.register n.register)
      (processes : n.processes = s.node.processes) (endings : n.endings = s.node.endings) :
      Chore settings rig s { s with node := n }
  | kill (s : Site σ) (id : ContainerId) : Chore settings rig s (s.callEngine rig (.kill id)).2
  | failedDump {s s' : Site σ} {id : ContainerId} {plan : Plan} {leaveRunning : Bool}
      {e : EngineError} (next : plan.dump.sequence.toNat = s.nextSequence)
      (h : s.takeDump settings rig id plan leaveRunning = (.error e, s')) :
      Chore settings rig s s'
  | checkpoint {s s' : Site σ} {id : ContainerId} {d : Dump} (kind : d.kind = .checkpoint)
      (h : s.takeDump settings rig id ⟨d, none⟩ true = (.ok (), s')) : Chore settings rig s s'
  | cleared {s : Site σ} {d : Dump} {disk : Disk} (kind : d.kind = .checkpoint)
      (h : s.disk.removeAll (d.pathIn settings.dumpPath) = .ok disk) :
      Chore settings rig s { s with disk }
  | network (s : Site σ) (address : String) (line : Bytes) :
      Chore settings rig s { s with env := (rig.network address line s.env).2 }
  | sent {s : Site σ} {t : Target} {p : Chain × σ}
      (h : Chain.Sends (rig.send s.disk t) t.key (s.register.chain, s.env) p) :
      Chore settings rig s { s.modify (fun r => { r with chain := p.1 }) with env := p.2 }
  | sentClosed {s : Site σ} {t : Target} {c : Chain} {p : Chain × σ}
      (closed : s.register.closed = some c)
      (h : Chain.Sends (rig.send s.disk t) t.key (c, s.env) p) :
      Chore settings rig s { s.modify (fun r => { r with closed := some p.1 }) with env := p.2 }

abbrev Chores (settings : Settings) (rig : Rig σ) : Site σ → Site σ → Prop :=
  ReflTransGen (Chore settings rig)

/-- What chores leave alone. -/
structure Kept (s s' : Site σ) : Prop where
  status : s'.register.status = s.register.status
  processes : s'.node.processes = s.node.processes
  endings : s'.node.endings = s.node.endings
  chain : s'.register.chain.dumps = s.register.chain.dumps
  closed : s'.register.closed.map Chain.dumps = s.register.closed.map Chain.dumps

theorem Kept.refl (s : Site σ) : Kept s s := ⟨rfl, rfl, rfl, rfl, rfl⟩

theorem Kept.trans {a b c : Site σ} (h : Kept a b) (k : Kept b c) : Kept a c :=
  ⟨k.status.trans h.status, k.processes.trans h.processes, k.endings.trans h.endings,
    k.chain.trans h.chain, k.closed.trans h.closed⟩

theorem Kept.of_node {s s' : Site σ} (h : s'.node = s.node) : Kept s s' := by
  refine ⟨?_, ?_, ?_, ?_, ?_⟩ <;> simp only [Site.register, h]

@[simp] theorem node_takeDump (settings : Settings) (rig : Rig σ) (id : ContainerId)
    (plan : Plan) (leaveRunning : Bool) (s : Site σ) :
    (s.takeDump settings rig id plan leaveRunning).2.node = s.node := rfl

theorem node_of_takeDump {id : ContainerId} {plan : Plan} {leaveRunning : Bool}
    {s s' : Site σ} {r : Except EngineError Unit}
    (h : s.takeDump settings rig id plan leaveRunning = (r, s')) : s'.node = s.node := by
  have := node_takeDump settings rig id plan leaveRunning s
  rw [h] at this
  exact this

theorem Chore.kept {s s' : Site σ} (h : Chore settings rig s s') : Kept s s' := by
  cases h with
  | node register processes endings =>
      exact ⟨register.status, processes, endings, congrArg Chain.dumps register.chain,
        congrArg _ register.closed⟩
  | kill => exact .of_node rfl
  | failedDump _ h => exact .of_node (node_of_takeDump h)
  | checkpoint _ h => exact .of_node (node_of_takeDump h)
  | cleared => exact .of_node rfl
  | network => exact .of_node rfl
  | sent h => exact ⟨rfl, rfl, rfl, h.dumps_eq, rfl⟩
  | sentClosed closed h =>
      refine ⟨rfl, rfl, rfl, rfl, ?_⟩
      rw [closed]
      exact congrArg some h.dumps_eq

theorem Chores.kept {s s' : Site σ} (h : Chores settings rig s s') : Kept s s' := by
  induction h with
  | refl => exact .refl s
  | tail _ h ih => exact ih.trans h.kept

theorem Kept.position {s s' : Site σ} (h : Kept s s') :
    Cadence.position s'.register.chain s'.register.closed =
      Cadence.position s.register.chain s.register.closed :=
  Cadence.position_congr h.chain h.closed

/-! ## Replication -/

theorem chores_sent {s : Site σ} {t : Target} {p : Chain × σ}
    (h : ReflTransGen (Chain.Sends (rig.send s.disk t) t.key) (s.register.chain, s.env) p) :
    Chores settings rig s { s.modify (fun r => { r with chain := p.1 }) with env := p.2 } := by
  induction h with
  | refl => exact .refl
  | tail _ one ih => exact ih.tail (.sent one)

theorem chores_sentClosed {s : Site σ} {t : Target} {c : Chain} {p : Chain × σ}
    (closed : s.register.closed = some c)
    (h : ReflTransGen (Chain.Sends (rig.send s.disk t) t.key) (c, s.env) p) :
    Chores settings rig s
      { s.modify (fun r => { r with closed := some p.1 }) with env := p.2 } := by
  induction h with
  | refl =>
      obtain ⟨⟨r, pinged, processes, endings, supervised⟩, disk, env⟩ := s
      obtain ⟨status, changes, container, bundle, chain, closed', targets⟩ := r
      cases closed
      exact .refl
  | tail _ one ih => exact ih.tail (.sentClosed rfl one)

/-- One pass over each of both chains. -/
def Site.passChains (pass : Chain → σ → Nat × Chain × σ) (s : Site σ) : Site σ :=
  let s := match s.register.closed with
    | none => s
    | some closed =>
      let (_, closed, env) := pass closed s.env
      { s.modify (fun r => { r with closed := some closed }) with env }
  let (_, chain, env) := pass s.register.chain s.env
  { s.modify (fun r => { r with chain }) with env }

theorem syncTarget_eq (rig : Rig σ) (s : Site σ) (t : Target) :
    s.syncTarget rig t = s.passChains fun c => c.sync (rig.send s.disk t) t.key := by
  unfold Site.syncTarget Site.passChains
  cases s.register.closed <;> rfl

theorem onJoin_eq {rig : Rig σ} {host : String} {m : Rpc.Join} {id : ContainerId} {s : Site σ}
    (assigned : s.register.container = some id) :
    s.onJoin rig host m = (.joined id.text,
      (s.modify fun r => (r.addTarget (Site.targetOf host m)).2).passChains fun c =>
        c.sendAll (rig.send s.disk (Site.targetOf host m)) (Site.targetOf host m).key) := by
  unfold Site.onJoin Site.passChains
  rw [assigned]
  dsimp only
  cases (s.modify fun r => (r.addTarget (Site.targetOf host m)).2).register.closed <;> rfl

theorem passChains_of_none {pass : Chain → σ → Nat × Chain × σ} {s : Site σ}
    (closed : s.register.closed = none) :
    s.passChains pass = { s.modify (fun r => { r with
      chain := (pass s.register.chain s.env).2.1 }) with
      env := (pass s.register.chain s.env).2.2 } := by
  unfold Site.passChains
  rw [closed]

theorem passChains_of_some {pass : Chain → σ → Nat × Chain × σ} {s : Site σ} {c : Chain}
    (closed : s.register.closed = some c) :
    s.passChains pass = { s.modify (fun r => { r with
      closed := some (pass c s.env).2.1
      chain := (pass s.register.chain (pass c s.env).2.2).2.1 }) with
      env := (pass s.register.chain (pass c s.env).2.2).2.2 } := by
  unfold Site.passChains
  rw [closed]
  rfl

theorem chores_passChains {pass : Chain → σ → Nat × Chain × σ} {t : Target} {s : Site σ}
    (sends : ∀ (c : Chain) env,
      ReflTransGen (Chain.Sends (rig.send s.disk t) t.key) (c, env) (pass c env).2) :
    Chores settings rig s (s.passChains pass) := by
  cases closed : s.register.closed with
  | none =>
      rw [passChains_of_none closed]
      exact chores_sent (sends s.register.chain s.env)
  | some c =>
      have first : Chores settings rig _ _ := chores_sentClosed closed (sends c s.env)
      rw [passChains_of_some closed]
      exact first.trans (chores_sent (sends s.register.chain (pass c s.env).2.2))

theorem chores_syncTarget (s : Site σ) (t : Target) :
    Chores settings rig s (s.syncTarget rig t) := by
  rw [syncTarget_eq]
  exact chores_passChains fun c env => c.sends_sync (rig.send s.disk t) t.key env

theorem chores_syncTargets (ts : List Target) (s : Site σ) :
    Chores settings rig s (ts.foldl (Site.syncTarget rig) s) := by
  induction ts generalizing s with
  | nil => exact .refl
  | cons t ts ih => exact (chores_syncTarget s t).trans (ih _)

theorem chores_completeTarget (s : Site σ) (t : Target) :
    Chores settings rig s (s.completeTarget rig t).2 :=
  chores_sent (s.register.chain.sends_sync (rig.send s.disk t) t.key s.env)

theorem alike_addTarget (r : Register) (t : Target) : Alike r (r.addTarget t).2 := by
  unfold Register.addTarget
  split <;> exact ⟨rfl, rfl, rfl⟩

theorem chores_onJoin (host : String) (m : Rpc.Join) (s : Site σ) :
    Chores settings rig s (s.onJoin rig host m).2 := by
  cases assigned : s.register.container with
  | none =>
      have refused : (s.onJoin rig host m).2 = s := by rw [Site.onJoin, assigned]
      rw [refused]
  | some id =>
      let t := Site.targetOf host m
      have added : Chores settings rig s (s.modify fun r => (r.addTarget t).2) :=
        .single (.node (alike_addTarget s.register t) rfl rfl)
      rw [onJoin_eq assigned]
      exact added.trans (chores_passChains fun c env => c.sends_sendAll _ _ env)

/-! ## Targets -/

theorem alike_removeTarget (r : Register) (key : String) :
    Alike r (r.removeTarget key).2 := by
  unfold Register.removeTarget
  split <;> exact ⟨rfl, rfl, rfl⟩

theorem alike_dropTargets (silent : List Target) (r : Register) :
    Alike r (Site.dropTargets silent r).2 := by
  unfold Site.dropTargets
  generalize 0 = n
  induction silent generalizing n r with
  | nil => exact .refl r
  | cons t ts ih =>
      have one := alike_removeTarget r t.key
      rw [List.foldl_cons]
      dsimp only
      split
      · rename_i h
        rw [h] at one
        exact one.trans (ih _ _)
      · rename_i h
        rw [h] at one
        exact one.trans (ih _ _)

theorem chores_call (address : String) (timeout : Nat) (m : Rpc.Message) (s : Site σ) :
    Chores settings rig s { s with env := (Rpc.call rig.network address timeout m s.env).2 } := by
  unfold Rpc.call
  split
  · exact .refl
  · exact .single (.network s address _)

theorem chores_silentTargets (ts : List Target) (s : Site σ) :
    Chores settings rig s { s with env := (Site.silentTargets settings rig ts s.env).2 } := by
  induction ts generalizing s with
  | nil => exact .refl
  | cons t ts ih =>
      have one : Chores settings rig _ _ :=
        chores_call t.rpcAddress settings.limits.ping .ping s
      exact one.trans (ih { s with env := _ })

theorem chores_pingTargets (s : Site σ) :
    Chores settings rig s (s.pingTargets settings rig).2 :=
  (chores_silentTargets s.register.published s).trans
    (.single (.node (alike_dropTargets _ s.register) rfl rfl))

/-! ## Requests -/

theorem chores_onJoinAck (m : Rpc.JoinAck) (s : Site σ) :
    Chores settings rig s (s.onJoinAck m).2 := by
  unfold Site.onJoinAck
  split
  · exact .single (.node ⟨rfl, rfl, rfl⟩ rfl rfl)
  · exact .refl

theorem chores_onPing (s : Site σ) : Chores settings rig s s.onPing.2 :=
  .single (.node (.refl _) rfl rfl)

theorem chores_clearImage {d : Dump} (kind : d.kind = .checkpoint) (s : Site σ) :
    Chores settings rig s (s.clearImage (d.pathIn settings.dumpPath)).2 := by
  unfold Site.clearImage
  split
  · split
    · exact .refl
    · rename_i h
      exact .single (.cleared kind h)
  · exact .refl

theorem chores_checkpoint (s : Site σ) :
    Chores settings rig s (s.checkpoint settings rig).2 := by
  unfold Site.checkpoint
  split
  · exact .refl
  split
  · exact .refl
  split
  · exact .refl
  rename_i d hd
  have kind := (Dump.checkpoint?_eq_some hd).1
  have next := (Dump.checkpoint?_eq_some hd).2
  have cleared : Chores settings rig _ _ := chores_clearImage kind s
  split
  · rename_i h
    rw [h] at cleared
    exact cleared
  · rename_i h
    rw [h] at cleared
    refine cleared.trans ?_
    split
    · rename_i ht
      refine .single (.failedDump ?_ ht)
      unfold Site.nextSequence Cadence.lastSequence Cadence.checkpointBase
      rw [cleared.kept.position]
      exact next
    · rename_i ht
      exact .single (.checkpoint kind ht)

theorem chores_terminate (s : Site σ) : Chores settings rig s (s.terminate rig).2 := by
  unfold Site.terminate
  split
  · rename_i id _ _
    have one : Chore settings rig _ _ := .kill s id
    split <;> rename_i h <;> rw [h] at one <;> exact .single one
  · exact .refl

end LiveMigration.Node
