import LiveMigration.Proofs.Chain.Held
import LiveMigration.Proofs.Chain.Rebuilt
import LiveMigration.Proofs.Node.CadenceSchedule
import LiveMigration.Proofs.Node.Enduring
import LiveMigration.Proofs.Rpc.RoundTrip

/-!
What a handoff message says. When a node sends it, the message names the whole chain, the
chain ends with the full dump that stopped the container, the target has received every one
of the dumps, and the target rebuilds the same chain from the message.
-/

namespace LiveMigration.Node

variable {σ : Type} {settings : Settings} {rig : Rig σ}

/-- Some transfer of a dump to a target with this key went well. -/
def Delivered (key : String) (d : Dump) (deeds : List Deed) : Prop :=
  ∃ t before, t.key = key ∧ Deed.sent t d before true ∈ deeds

theorem Delivered.mono {key : String} {d : Dump} {deeds deeds' : List Deed}
    (h : Delivered key d deeds) (grown : deeds <+: deeds') : Delivered key d deeds' := by
  obtain ⟨t, before, hkey, mem⟩ := h
  exact ⟨t, before, hkey, grown.subset mem⟩

/-- The marks of the current chain go by age, and a transfer stands behind each. -/
structure Accounted (s : Site (Recorded σ)) : Prop where
  order : s.register.chain.HeldInOrder
  delivered : ∀ l ∈ s.register.chain.links, ∀ key, l.isHeldBy key = true →
    Delivered key l.dump s.env.deeds

theorem Accounted.of_same {s s' : Site (Recorded σ)} (h : Accounted s)
    (chain : s'.register.chain = s.register.chain) (grown : s.env.deeds <+: s'.env.deeds) :
    Accounted s' := by
  refine ⟨chain ▸ h.order, ?_⟩
  rw [chain]
  exact fun l hl key held => (h.delivered l hl key held).mono grown

theorem Accounted.chore {s s' : Site (Recorded σ)} (h : Accounted s)
    (done : Chore settings rig.recorded s s') : Accounted s' := by
  have grown := done.deeds_prefix
  cases done with
  | node register => exact h.of_same register.chain grown
  | kill => exact h.of_same rfl grown
  | failedDump _ ht =>
      exact h.of_same (congrArg (fun n : Node => n.register.chain) (node_of_takeDump ht)) grown
  | checkpoint _ ht =>
      exact h.of_same (congrArg (fun n : Node => n.register.chain) (node_of_takeDump ht)) grown
  | cleared => exact h.of_same rfl grown
  | network => exact h.of_same rfl grown
  | sentClosed => exact h.of_same rfl grown
  | sent sends =>
      refine ⟨h.order.sends sends, ?_⟩
      intro r hr key held
      obtain ⟨l, hl, same, held⟩ | ⟨rfl, before, sent⟩ := sends.mark_cases r hr key held
      · rw [← same]
        exact (h.delivered l hl key held).mono grown
      · refine ⟨_, before, rfl, ?_⟩
        have deeds := deeds_of_send sent
        dsimp only at deeds ⊢
        rw [deeds]
        simp [Except.isOk, Except.toBool]

theorem Accounted.chores {s s' : Site (Recorded σ)} (h : Accounted s)
    (done : Chores settings rig.recorded s s') : Accounted s' := by
  induction done with
  | refl => exact h
  | tail _ one ih => exact ih.chore one

theorem Accounted.takes {id : ContainerId} {plan : Plan} {leaveRunning : Bool}
    {s s' : Site (Recorded σ)} (h : Accounted s)
    (takes : Takes settings rig.recorded id plan leaveRunning s s') : Accounted s' := by
  have grown : s.env.deeds <+: s'.env.deeds := by
    rw [takes.deeds_eq]
    exact List.prefix_append _ _
  have chain : s'.register.chain = s.register.chain.push plan.dump := by
    rw [Site.register, takes.node_eq]
    rfl
  refine ⟨?_, ?_⟩
  · rw [chain]
    exact h.order.push _
  · rw [chain]
    intro l hl key held
    rcases List.mem_append.1 hl with hl | hl
    · exact (h.delivered l hl key held).mono grown
    · rw [List.mem_singleton.1 hl] at held
      cases held

/-- What a node has done and says when it hands its container over. -/
structure Agreed (settings : Settings) (t : Target) (m : Rpc.Migrate) (w : Working σ) :
    Prop where
  names : m.names = w.chain.names
  consecutive : Chain.Consecutive w.chain.dumps
  shape : ∃ pres pre full id, w.chain.dumps = pres ++ [pre, full] ∧
    (∀ d ∈ pres, d.kind = .pre) ∧ pre.kind = .pre ∧ full.kind = .full ∧
    Deed.called (.dump id (full.pathIn settings.dumpPath) (some ("../" ++ pre.name)) false) true
      ∈ w.deeds
  delivered : ∀ d ∈ w.chain.dumps, Delivered t.key d w.deeds

theorem Agreed.of_same {t : Target} {m : Rpc.Migrate} {w w' : Working σ}
    (h : Agreed settings t m w) (dumps : w'.chain.dumps = w.chain.dumps)
    (grown : w.deeds <+: w'.deeds) : Agreed settings t m w' := by
  obtain ⟨names, consecutive, shaped, delivered⟩ := h
  obtain ⟨pres, pre, full, id, shape, kinds, hpre, hfull, called⟩ := shaped
  refine ⟨?_, ?_, ⟨pres, pre, full, id, ?_, kinds, hpre, hfull, grown.subset called⟩, ?_⟩
  · rw [names, Chain.names, Chain.names, dumps]
  · rw [dumps]
    exact consecutive
  · rw [dumps]
    exact shape
  · rw [dumps]
    exact fun d hd => (delivered d hd).mono grown

theorem consecutive_takes {id : ContainerId} {plan : Plan} {leaveRunning : Bool} {s s' : Site σ}
    (h : Chain.Consecutive s.register.chain.dumps)
    (takes : Takes settings rig id plan leaveRunning s s')
    (next : plan.dump.sequence.toNat = s.nextSequence) :
    Chain.Consecutive s'.register.chain.dumps := by
  rw [takes.dumps_eq]
  refine h.concat ?_
  intro last hl
  rw [← Chain.latest?_eq] at hl
  rw [next, Site.nextSequence, Cadence.lastSequence_eq hl]

theorem FinalDumps.consecutive {id : ContainerId} {pre : Plan} {full : Dump} {s s' : Site σ}
    (h : FinalDumps settings rig id pre full s s')
    (consecutive : Chain.Consecutive s.register.chain.dumps) :
    Chain.Consecutive s'.register.chain.dumps := by
  obtain ⟨between, first, second⟩ := h.steps
  have latest : between.register.chain.latest? = some pre.dump := by
    rw [Chain.latest?_eq, first.dumps_eq, List.getLast?_concat]
  refine consecutive_takes (consecutive_takes consecutive first ?_) second ?_
  · exact (Cadence.finalPre?_eq_some h.planned).2.2
  · rw [Site.nextSequence, Cadence.lastSequence_eq latest]
    exact (Dump.nextFull?_eq_some h.follows).2.1

theorem Ticks.consecutive {plan : Plan} {s s' : Site σ} (h : Ticks settings rig plan s s')
    (consecutive : Chain.Consecutive s.register.chain.dumps) :
    Chain.Consecutive s'.register.chain.dumps := by
  obtain ⟨_, _, _, _, takes, _⟩ := h.steps
  rw [h.dumps_eq]
  split
  · exact .nil
  · rw [← takes.dumps_eq]
    exact consecutive_takes consecutive takes (Cadence.next?_eq_some h.planned).2.2

/-- The cadence leaves no full dump in the open chain. -/
theorem Ticks.pres {plan : Plan} {s s' : Site σ} (h : Ticks settings rig plan s s')
    (pres : ∀ d ∈ s.register.chain.dumps, d.kind = .pre) :
    ∀ d ∈ s'.register.chain.dumps, d.kind = .pre := by
  have regular := (Cadence.next?_eq_some h.planned).1
  rw [h.dumps_eq]
  split
  · exact nofun
  · rename_i remains
    intro d hd
    rcases List.mem_append.1 hd with hd | hd
    · exact pres d hd
    · rw [List.mem_singleton.1 hd]
      cases kind : plan.dump.kind with
      | pre => rfl
      | full => exact absurd kind remains
      | checkpoint => exact absurd kind regular

theorem FallsShort.consecutive {s s' : Site σ} (h : FallsShort settings rig s s')
    (consecutive : Chain.Consecutive s.register.chain.dumps) :
    Chain.Consecutive s'.register.chain.dumps := by
  cases h with
  | early done =>
      rw [done.kept.chain]
      exact consecutive
  | between planned first done =>
      rw [done.kept.chain]
      exact consecutive_takes consecutive first (Cadence.finalPre?_eq_some planned).2.2
  | late final done =>
      rw [done.kept.chain]
      exact final.consecutive consecutive

theorem lasting_accounted : Lasting settings rig.recorded Accounted :=
  ⟨fun done h => h.chores done, fun takes h => h.takes takes⟩

theorem Accounted.closeBehind {s : Site (Recorded σ)} (h : Accounted s) (d : Dump) :
    Accounted (closeBehind d s) := by
  unfold Node.closeBehind
  split
  · exact ⟨Chain.heldInOrder_empty, nofun⟩
  · exact h

theorem Accounted.ticks {plan : Plan} {s s' : Site (Recorded σ)} (h : Accounted s)
    (ticks : Ticks settings rig.recorded plan s s') : Accounted s' := by
  obtain ⟨_, _, _, _, takes, done, rfl⟩ := ticks.steps
  exact ((h.takes takes).chores done).closeBehind plan.dump

/-- The final full dump asks the engine to stop the container, with the final pre-dump as its
parent. -/
theorem FinalDumps.called {id : ContainerId} {pre : Plan} {full : Dump}
    {s s' : Site (Recorded σ)} (final : FinalDumps settings rig.recorded id pre full s s') :
    Deed.called (.dump id (full.pathIn settings.dumpPath) (some ("../" ++ pre.dump.name)) false)
      true ∈ s'.env.deeds := by
  obtain ⟨between, first, second⟩ := final.steps
  have kind := (Dump.nextFull?_eq_some final.follows).1
  rw [second.deeds_eq]
  unfold dumpCall
  dsimp only
  rw [kind]
  exact List.mem_append_right _ (List.mem_singleton_self _)

theorem held_of_completeTarget {t : Target} {s s' : Site σ}
    (h : s.completeTarget rig t = (true, s')) :
    ∃ last, s'.register.chain.latestLink? = some last ∧ last.isHeldBy t.key = true := by
  have held : (s.completeTarget rig t).1 =
      (s.completeTarget rig t).2.register.chain.latestLink?.any (·.isHeldBy t.key) := rfl
  rw [h] at held
  cases hl : s'.register.chain.latestLink? with
  | none =>
      rw [hl] at held
      cases held
  | some last =>
      rw [hl] at held
      exact ⟨last, rfl, held.symm⟩

theorem HandsOver.agreed {t : Target} {m : Rpc.Migrate} {w w' : Working σ}
    (h : HandsOver settings rig.recorded t m w.site w'.site) (accounted : Accounted w.site)
    (consecutive : Chain.Consecutive w.chain.dumps) (pres : ∀ d ∈ w.chain.dumps, d.kind = .pre) :
    Agreed settings t m w' ∧ Accounted w'.site := by
  obtain ⟨id, bundle, pre, full, taken, final, completed, hm⟩ := h.steps
  have done : Chores settings rig.recorded _ _ := chores_completeTarget taken t
  rw [completed] at done
  have after := (lasting_accounted.finalDumps final accounted).chores done
  have dumps : w'.chain.dumps = w.chain.dumps ++ [pre.dump, full] := by
    rw [Working.chain, done.kept.chain, final.dumps_eq]
  have ordered : Chain.Consecutive w'.chain.dumps := by
    rw [Working.chain, done.kept.chain]
    exact final.consecutive consecutive
  obtain ⟨last, hlast, held⟩ := held_of_completeTarget completed
  refine ⟨⟨Rpc.Migrate.names_of_new ordered.ascending hm, ordered,
    ⟨w.chain.dumps, pre.dump, full, id, dumps, pres, (Cadence.finalPre?_eq_some final.planned).1,
      (Dump.nextFull?_eq_some final.follows).1, done.deeds_prefix.subset final.called⟩, ?_⟩, after⟩
  intro d hd
  obtain ⟨l, hl, rfl⟩ := List.mem_map.1 hd
  exact after.delivered l hl t.key (after.order.all hlast held l hl)

/-- A node with a chain that can be handed over. -/
structure Ready (settings : Settings) (w : Working σ) : Prop where
  underway : Underway w
  accounted : Accounted w.site
  consecutive : Chain.Consecutive w.chain.dumps
  pres : ¬ Past w → ∀ d ∈ w.chain.dumps, d.kind = .pre
  agreed : ∀ t m, w.activity = .handingOver t m → Agreed settings t m w

theorem Ready.of_chores {w w' : Working σ} (r : Ready settings w) (underway : Underway w')
    (early : ¬ Past w' → ¬ Past w) (accounted : Accounted w'.site)
    (dumps : w'.chain.dumps = w.chain.dumps) (grown : w.deeds <+: w'.deeds)
    (same : ∀ t m, w'.activity = .handingOver t m → w.activity = .handingOver t m) :
    Ready settings w' := by
  refine ⟨underway, accounted, ?_, ?_, ?_⟩
  · rw [dumps]
    exact r.consecutive
  · rw [dumps]
    exact fun later => r.pres (early later)
  · exact fun t m h => (r.agreed t m (same t m h)).of_same dumps grown

theorem Ready.step {w w' : Working σ} {e : Event} {a : Answer} (r : Ready settings w)
    (h : e.perform settings rig w = some (a, w')) : Ready settings w' := by
  obtain ⟨underway, works⟩ := r.underway.step h
  have early (later : ¬ Past w') : ¬ Past w := fun past => later (past.step r.underway h)
  cases works with
  | chores _ done same =>
      exact r.of_chores underway early (r.accounted.chores done) done.kept.chain
        done.deeds_prefix same
  | rests _ rests same =>
      exact r.of_chores underway early (r.accounted.of_same rests.chain rests.deeds_prefix)
        (congrArg Chain.dumps rests.chain) rests.deeds_prefix same
  | received =>
      exact r.of_chores underway early (r.accounted.of_same rfl List.prefix_rfl) rfl
        List.prefix_rfl fun _ _ h => h
  | ticks plan ticks before same =>
      refine ⟨underway, r.accounted.ticks ticks, ticks.consecutive r.consecutive,
        fun _ => ticks.pres (r.pres before), ?_⟩
      intro t m handing
      exact absurd (.inl ⟨t, m, same ▸ handing⟩) before
  | handsOver before hands now =>
      rename_i t m
      obtain ⟨agreed, accounted⟩ := hands.agreed r.accounted r.consecutive (r.pres before)
      refine ⟨underway, accounted, agreed.consecutive, ?_, ?_⟩
      · exact fun later => absurd (.inl ⟨t, m, now⟩) later
      · intro t' m' handing
        rw [now] at handing
        cases handing
        exact agreed
  | fallsShort before short now =>
      refine ⟨underway, lasting_accounted.fallsShort short r.accounted,
        short.consecutive r.consecutive, ?_, ?_⟩
      · exact fun later => absurd (.inr (.inl ⟨_, now⟩)) later
      · intro t m handing
        rw [now] at handing
        cases handing

theorem Ready.of_empty {w : Working σ} (underway : Underway w) (empty : w.chain.dumps = [])
    (idle : ∀ t m, w.activity ≠ .handingOver t m) : Ready settings w := by
  have links : w.chain.links = [] := List.map_eq_nil_iff.1 empty
  refine ⟨underway, ⟨?_, ?_⟩, ?_, ?_, ?_⟩
  · intro key
    rw [links]
    exact .nil
  · rw [links]
    exact nofun
  · rw [empty]
    exact .nil
  · rw [empty]
    exact fun _ => nofun
  · exact fun t m handing => absurd handing (idle t m)

/-- Whenever a node sends a handoff message: what the message names, what the node has done
for it, and what the target makes of it. -/
theorem handoff_agreement {w₀ w : Working σ} {ms : List (Moment σ)}
    (course : Course settings rig w₀ ms w)
    (start : StartedFresh settings rig w₀ ∨ ∃ latest, Restored settings rig latest w₀)
    {t : Target} {m : Rpc.Migrate} (sending : w.activity = .handingOver t m) :
    Agreed settings t m w ∧ ∀ line, (Rpc.Message.migrate m).encode = .ok line →
      ∃ m', Rpc.Message.decode line = .ok (.migrate m') ∧
        (Chain.ofDumps m'.dumps).names = m.names := by
  have ready : Ready settings w₀ := by
    obtain fresh | ⟨latest, restored⟩ := start
    · obtain ⟨underway, running, empty, _⟩ := fresh.underway
      refine .of_empty underway empty ?_
      intro t m handing
      exact underway.not_past_of_running running (.inl ⟨t, m, handing⟩)
    · obtain ⟨underway, empty, _⟩ := restored.underway
      obtain ⟨_, _, _, _, leaving, _⟩ := restored
      refine .of_empty underway empty ?_
      intro t m handing
      rw [leaving] at handing
      cases handing
  have reached : Ready settings w := course.preserves ready fun r h => r.step h
  refine ⟨reached.agreed t m sending, ?_⟩
  intro line written
  exact ⟨m, Rpc.decode_encode written, Chain.names_ofDumps m.dumps⟩

theorem bind_expectAck_eq_ok {reply : Except RpcError Rpc.Reply} {request : Rpc.Form} :
    reply.bind (Rpc.expectAck request) = .ok () ↔ reply = .ok .ack := by
  cases reply with
  | error => exact ⟨nofun, nofun⟩
  | ok r => cases r <;> simp [Except.bind, Rpc.expectAck]

/-- A node that is about to send its handoff message gives exactly the line of the message to the
network, addressed to the target, and does nothing else. It is done with its container if and only
if the target acknowledges. -/
theorem perform_handingOver {w : Working σ} {t : Target} {m : Rpc.Migrate} {line : Bytes}
    (handing : w.activity = .handingOver t m)
    (written : (Rpc.Message.migrate m).line = .ok line) :
    let sent := rig.network t.rpcAddress line w.site.env.state
    let reply := Rpc.replyOf t.rpcAddress settings.limits.rpc sent.1
    Event.proceed.perform settings rig w =
      some (.nothing, ⟨.leaving .migrating (if reply = .ok .ack then .stopped else .failed),
        { w.site with env := { w.site.env with state := sent.2 } }⟩) := by
  intro sent reply
  have handed : w.site.handOver settings rig.recorded t m = (reply.bind (Rpc.expectAck .migrate),
      { w.site with env := { w.site.env with state := sent.2 } }) := by
    simp only [Site.handOver, Rpc.callMigrate, Rpc.call, written]
    rfl
  rw [Event.perform, handing, Site.proceed, handed]
  by_cases acknowledged : reply = .ok .ack
  · rw [bind_expectAck_eq_ok.2 acknowledged, if_pos acknowledged]
  · cases failed : reply.bind (Rpc.expectAck .migrate) with
    | ok => exact absurd (bind_expectAck_eq_ok.1 failed) acknowledged
    | error => rw [if_neg acknowledged]

theorem prepareHandoff_eq {s s₁ s₂ : Site σ} {id : ContainerId} {bundle : Path} {t : Target}
    {m : Rpc.Migrate} (assigned : s.register.container = some id)
    (bundled : s.register.bundle = some bundle) (first : s.register.targets.head? = some t)
    (taken : s.takeFinalDumps settings rig id = (.ok (), s₁))
    (completed : s₁.completeTarget rig t = (true, s₂))
    (named : Rpc.Migrate.new s₂.register.chain.names id.text bundle = .ok m) :
    s.prepareHandoff settings rig = (.ok (t, m), s₂) := by
  unfold Site.prepareHandoff
  simp only [assigned, bundled, first, taken, completed, named]

theorem perform_prepared {w : Working σ} {s : Site (Recorded σ)} {t : Target} {m : Rpc.Migrate}
    (entering : w.activity = .entering .migrating)
    (prepared : w.site.prepareHandoff settings rig.recorded = (.ok (t, m), s)) :
    Event.proceed.perform settings rig w = some (.nothing, ⟨.handingOver t m, s⟩) := by
  have entered : w.site.proceed settings rig.recorded w.activity =
      (some (.handingOver t m), s) := by
    rw [entering, Site.proceed, Site.enter, prepared]
  rw [Event.perform, entered]

def sampleLast : Rpc.Migrate where
  dumps := [⟨.pre, 1, 0⟩, ⟨.full, 2, 0⟩]
  container := sampleContainer
  bundle := .ofText "/"
  nonempty := by decide
  ascending := rfl
  named := by decide
  bundled := rfl

/-- A node that hands its container to a replica that joined. -/
theorem handoff_agreement_sample :
    ∃ w₀ w ms t, Course .sample .sample w₀ ms w ∧ StartedFresh .sample .sample w₀ ∧
      w.activity = .handingOver t sampleLast ∧ Agreed .sample t sampleLast w ∧
      ∃ line m', (Rpc.Message.migrate sampleLast).encode = .ok line ∧
        Rpc.Message.decode line = .ok (.migrate m') ∧
        (Chain.ofDumps m'.dumps).names = sampleLast.names := by
  let fresh : Working Unit := sampleAfter [.run sampleContainer (.ofText "/")]
  have started : StartedFresh .sample .sample fresh :=
    ⟨.started sampleDisk (), sampleContainer, .ofText "/", ⟨_, _, _, .start⟩, rfl, rfl⟩
  let asked : Working Unit := sampleAfter [.run sampleContainer (.ofText "/"),
    .message "h" (.join sampleJoin), .command (.migrate sampleContainer), .proceed]
  have course : Course .sample .sample fresh _ asked :=
    .next (e := .proceed) (.next (e := .command (.migrate sampleContainer))
      (.next (e := .message "h" (.join sampleJoin)) .start rfl) rfl) rfl
  obtain ⟨t, s, prepared⟩ : ∃ t s, asked.site.prepareHandoff .sample Rig.sample.recorded =
      (.ok (t, sampleLast), s) :=
    ⟨_, _, prepareHandoff_eq rfl rfl rfl rfl rfl (Rpc.Migrate.new_names sampleLast)⟩
  have sends : Event.proceed.perform .sample .sample asked = _ := perform_prepared rfl prepared
  obtain ⟨agreed, decoded⟩ := handoff_agreement (course.next sends) (.inl started) rfl
  obtain ⟨line, written⟩ := Rpc.encode_migrate (m := sampleLast) rfl
  obtain ⟨m', read, same⟩ := decoded line written
  exact ⟨_, _, _, _, course.next sends, started, rfl, agreed, line, m', written, read, same⟩

end LiveMigration.Node
