import LiveMigration.Proofs.Node.ClosedChain
import LiveMigration.Proofs.Node.HandoffAgreement
import LiveMigration.Proofs.Node.Overflow
import LiveMigration.Proofs.Rpc.LineLength

/-!
How many dumps a handoff names. The open chain has the dumps since the last full one, so it grows
with every tick up to the period of the cadence, and the two last dumps of the handoff are added to
it. As the period may be any number, the line of the message may be longer than the listener of the
target takes; by then the last dump has stopped the container.
-/

namespace LiveMigration

namespace Cadence

/-- How many dumps the open chain has when the cadence has taken so many. After a fresh start the
phase begins at one, and the first chain is one dump shorter than the others. -/
def openAfter (freq : UInt64) (phase taken : Nat) : Nat :=
  if phase + taken ≤ freq.toNat then taken else (phase + taken) % (freq.toNat + 1)

theorem openAfter_zero {freq : UInt64} {phase : Nat} (early : phase ≤ freq.toNat) :
    openAfter freq phase 0 = 0 := if_pos early

theorem openAfter_le (freq : UInt64) (phase taken : Nat) :
    openAfter freq phase taken ≤ freq.toNat := by
  unfold openAfter
  split
  · omega
  · exact Nat.le_of_lt_succ (Nat.mod_lt _ (Nat.succ_pos _))

/-- A full dump closes the open chain, any other dump makes it longer. -/
theorem openAfter_succ (freq : UInt64) (phase taken : Nat) :
    openAfter freq phase (taken + 1) =
      if kindOf freq (phase + taken + 1) = .full then 0 else openAfter freq phase taken + 1 := by
  have step : (phase + taken + 1) % (freq.toNat + 1) =
      ((phase + taken) % (freq.toNat + 1) + 1) % (freq.toNat + 1) := by rw [Nat.mod_add_mod]
  have small : (phase + taken) % (freq.toNat + 1) < freq.toNat + 1 := Nat.mod_lt _ (Nat.succ_pos _)
  unfold openAfter
  rw [← Nat.add_assoc]
  by_cases closes : (phase + taken + 1) % (freq.toNat + 1) = 0
  · have beyond : ¬ phase + taken + 1 ≤ freq.toNat := by
      intro within
      rw [Nat.mod_eq_of_lt (by omega)] at closes
      cases closes
    rw [if_pos (kindOf_eq_full closes), if_neg beyond, closes]
  · have pre : kindOf freq (phase + taken + 1) ≠ .full := by rw [kindOf_eq_pre closes]; nofun
    rw [if_neg pre]
    by_cases within : phase + taken + 1 ≤ freq.toNat
    · rw [if_pos within, if_pos (by omega)]
    · have last : (phase + taken) % (freq.toNat + 1) + 1 ≠ freq.toNat + 1 := by
        intro last
        rw [step, last, Nat.mod_self] at closes
        exact closes rfl
      have later : ¬ phase + taken ≤ freq.toNat := by
        intro early
        rw [Nat.mod_eq_of_lt (by omega)] at last
        omega
      rw [if_neg within, if_neg later, step, Nat.mod_eq_of_lt (by omega)]

end Cadence

namespace Chain

variable {σ ε : Type} {send : Send σ ε}

theorem sendLinks_of_delivered (delivers : ∀ d before s, (send d before s).1 = .ok ())
    (key : String) (before : Option Dump) (links : List Link) (s : σ) :
    (sendLinks send key before links s).links = links.map (·.mark key) := by
  induction links generalizing before s with
  | nil => rfl
  | cons l links ih =>
      have arrived := delivers l.dump before s
      rw [sendLinks]
      split
      · exact congrArg (l.mark key :: ·) (ih ..)
      · rename_i lost
        rw [lost] at arrived
        cases arrived

/-- If no transfer fails, a target holds the latest dump after a pass. -/
theorem isHeldBy_of_delivered (delivers : ∀ d before s, (send d before s).1 = .ok ()) {c : Chain}
    (some : c.links ≠ []) (key : String) (s : σ) :
    (c.sync send key s).2.1.latestLink?.any (·.isHeldBy key) = true := by
  have links : (c.sync send key s).2.1.links =
      c.heldPart key ++ (c.pendingPart key).map (·.mark key) :=
    congrArg (_ ++ ·) (sendLinks_of_delivered delivers key _ _ s)
  rw [latestLink?, links, List.getLast?_append]
  cases pending : (c.pendingPart key).getLast? with
  | some l =>
      rw [List.getLast?_map, pending]
      exact isHeldBy_mark_self l key
  | none =>
      have parts := c.heldPart_append_pendingPart key
      rw [List.getLast?_eq_none_iff.1 pending, List.append_nil] at parts
      rw [List.getLast?_eq_none_iff.1 pending]
      have last := List.getLast?_eq_some_getLast (parts ▸ some)
      rw [last]
      exact c.last_heldPart key _ last

end Chain

namespace Node

open Cadence

variable {σ : Type} {settings : Settings} {rig : Rig σ} {w₀ w w' : Working σ}
  {ms : List (Moment σ)}

/-! ## The dumps of a handoff -/

theorem Ticks.length_dumps {plan : Plan} {s s' : Site σ} (h : Ticks settings rig plan s s') :
    s'.register.chain.dumps.length =
      if plan.dump.kind = .full then 0 else s.register.chain.dumps.length + 1 := by
  rw [h.dumps_eq]
  split
  · rfl
  · exact List.length_append

theorem HandsOver.length_dumps {t : Target} {m : Rpc.Migrate} {s s' : Site σ}
    (h : HandsOver settings rig t m s s') :
    m.dumps.length = s.register.chain.dumps.length + 2 := by
  obtain ⟨id, bundle, pre, full, taken, final, completed, hm⟩ := h.steps
  have done : Chores settings rig _ _ := chores_completeTarget taken t
  rw [completed] at done
  obtain ⟨ds, named, dumps, _, _⟩ := Rpc.Migrate.dumps_of_new hm
  rw [dumps, Rpc.length_inSequence, Dump.length_ofNames named, Chain.names, List.length_map,
    done.kept.chain, final.dumps_eq, List.length_append]
  rfl

/-- How long the open chain of a node is, and how many dumps its handoff names. -/
structure Grows (settings : Settings) (phase : Nat) (ms : List (Moment σ)) (w : Working σ) :
    Prop where
  early : ¬ Past w → w.chain.dumps.length =
    openAfter settings.frequency phase (cadenceOf ms).length
  handing : ∀ t m, w.activity = .handingOver t m →
    m.dumps.length = openAfter settings.frequency phase (cadenceOf ms).length + 2

theorem Grows.quiet {phase : Nat} {e : Event} {a : Answer} (g : Grows settings phase ms w)
    (quiet : ∀ d, a ≠ .dumped (.ok (some d)))
    (early : ¬ Past w' → ¬ Past w ∧ w'.chain.dumps = w.chain.dumps)
    (same : ∀ t m, w'.activity = .handingOver t m → w.activity = .handingOver t m) :
    Grows settings phase (ms ++ [⟨e, a, w, w'⟩]) w' := by
  refine ⟨fun later => ?_, fun t m handing => ?_⟩ <;> rw [cadenceOf_quiet quiet]
  · obtain ⟨before, dumps⟩ := early later
    rw [dumps, g.early before]
  · exact g.handing t m (same t m handing)

theorem Grows.step {sequence phase : Nat} {e : Event} {a : Answer}
    (positive : 1 ≤ settings.frequency.toNat) (k : KeepsSchedule settings sequence phase ms w)
    (g : Grows settings phase ms w) (h : e.perform settings rig w = some (a, w')) :
    Grows settings phase (ms ++ [⟨e, a, w, w'⟩]) w' := by
  obtain ⟨_, works⟩ := k.underway.step h
  have early (later : ¬ Past w') : ¬ Past w := fun past => later (past.step k.underway h)
  cases works with
  | chores quiet done same => exact g.quiet quiet (fun later => ⟨early later, done.kept.chain⟩) same
  | rests quiet rests same =>
      exact g.quiet quiet (fun later => ⟨early later, congrArg Chain.dumps rests.chain⟩) same
  | received => exact g.quiet (by simp) (fun later => ⟨early later, rfl⟩) fun _ _ h => h
  | fallsShort before _ now =>
      refine g.quiet (by simp) (fun later => absurd (.inr (.inl ⟨_, now⟩)) later) ?_
      intro t m handing
      rw [now] at handing
      cases handing
  | handsOver before hands now =>
      refine ⟨fun later => absurd (.inl ⟨_, _, now⟩) later, fun t m handing => ?_⟩
      rw [now] at handing
      cases handing
      rw [cadenceOf_quiet (by simp), hands.length_dumps]
      exact congrArg (· + 2) (g.early before)
  | ticks plan ticks before same =>
      -- Whether this dump closes the chain is known from the schedule: it is full at a multiple
      -- of the period, which is also where the count starts anew.
      obtain ⟨_, kind, _⟩ := (k.stands before).next positive ticks.planned
      refine ⟨fun _ => ?_, fun t m handing => absurd (.inl ⟨t, m, same ▸ handing⟩) before⟩
      have counted : (cadenceOf (ms ++ [⟨e, .dumped (.ok (some plan.dump)), w, w'⟩])).length =
          (cadenceOf ms).length + 1 := by
        rw [cadenceOf_append, List.length_append]
        rfl
      rw [counted, openAfter_succ, ← kind, ← g.early before]
      exact ticks.length_dumps

/-- The node has just begun to run its container; the phase of its cadence is one if it started
the container afresh, and zero if it restored it. -/
inductive BeginsAt (settings : Settings) (rig : Rig σ) : Nat → Working σ → Prop
  | fresh {w : Working σ} (h : StartedFresh settings rig w) : BeginsAt settings rig 1 w
  | restored {w : Working σ} {latest : Dump} (h : Restored settings rig latest w) :
      BeginsAt settings rig 0 w

/-- After a fresh start the cadence begins its first chain. -/
theorem StartedFresh.keepsSchedule (positive : 1 ≤ settings.frequency.toNat)
    (fresh : StartedFresh settings rig w₀) (course : Course settings rig w₀ ms w) :
    KeepsSchedule settings 0 1 ms w := by
  obtain ⟨underway, _, empty, none⟩ := fresh.underway
  have stands : Stands settings.frequency 0 1 Option.none (position w₀.chain w₀.closed) := by
    rw [position_of_fresh (Chain.latest?_eq_none_iff.2 empty)
      (by rw [Option.map_eq_none_iff.1 none]; rfl)]
    exact ⟨rfl, rfl, Nat.mod_eq_of_lt (by omega)⟩
  exact KeepsSchedule.course positive course underway stands

theorem BeginsAt.keepsSchedule {phase : Nat} (positive : 1 ≤ settings.frequency.toNat)
    (begins : BeginsAt settings rig phase w₀) (course : Course settings rig w₀ ms w) :
    ∃ sequence, KeepsSchedule settings sequence phase ms w := by
  cases begins with
  | fresh fresh => exact ⟨0, fresh.keepsSchedule positive course⟩
  | restored restored => exact ⟨_, restored.keepsSchedule positive course⟩

theorem BeginsAt.grows {phase : Nat} (positive : 1 ≤ settings.frequency.toNat)
    (begins : BeginsAt settings rig phase w) : Grows settings phase [] w := by
  cases begins with
  | fresh fresh =>
      obtain ⟨underway, running, empty, _⟩ := fresh.underway
      refine ⟨fun _ => ?_, fun t m handing => ?_⟩
      · rw [empty]
        exact (openAfter_zero positive).symm
      · exact absurd (.inl ⟨t, m, handing⟩) (underway.not_past_of_running running)
  | restored restored =>
      obtain ⟨_, empty, _⟩ := restored.underway
      obtain ⟨_, _, _, _, leaving, _⟩ := restored
      refine ⟨fun _ => ?_, fun t m handing => ?_⟩
      · rw [empty]
        exact (openAfter_zero (Nat.zero_le _)).symm
      · rw [leaving] at handing
        cases handing

theorem Course.grows {phase : Nat} (positive : 1 ≤ settings.frequency.toNat)
    (begins : BeginsAt settings rig phase w₀) (course : Course settings rig w₀ ms w) :
    Grows settings phase ms w := by
  induction course with
  | start => exact begins.grows positive
  | next course h ih =>
      obtain ⟨_, keeps⟩ := begins.keepsSchedule positive course
      exact ih.step positive keeps h

/-! ## Every number of dumps comes up -/

section Sample

variable (settings)

theorem takeDump_sample (id : ContainerId) (plan : Plan) (leaveRunning : Bool)
    (s : Site (Recorded Unit)) :
    ∃ s', s.takeDump settings Rig.sample.recorded id plan leaveRunning = (.ok (), s') :=
  ⟨_, rfl⟩

theorem takeFinalDumps_sample {s : Site (Recorded Unit)} (final : s.HasFinal) (id : ContainerId) :
    ∃ s', s.takeFinalDumps settings Rig.sample.recorded id = (.ok (), s') := by
  obtain ⟨pre, full, planned, follows⟩ := final
  unfold Site.takeFinalDumps
  rw [planned]
  dsimp only
  obtain ⟨s₁, first⟩ := takeDump_sample settings id pre true s
  rw [first]
  dsimp only
  rw [follows]
  exact ⟨_, rfl⟩

/-- A node that runs its container and has a replica, for which nothing ever fails. -/
structure Unhindered (t : Target) (w : Working Unit) : Prop where
  activity : w.activity = .deciding
  status : w.status = .running
  container : w.site.register.container = some sampleContainer
  bundle : w.site.register.bundle = some (.ofText "/")
  target : w.site.register.targets.head? = some t

theorem Unhindered.tick {t : Target} {w : Working Unit} (free : Unhindered t w)
    (room : lastSequence w.chain w.closed + 1 < UInt64.size) :
    ∃ d w', Event.tick.perform settings .sample w = some (.dumped (.ok (some d)), w') ∧
      Unhindered t w' := by
  have there : next? w.chain w.closed settings.frequency ≠ none := by
    rw [Ne, next?_eq_none_iff]
    omega
  obtain ⟨plan, planned⟩ := Option.ne_none_iff_exists'.1 there
  obtain ⟨taken, dumped⟩ := takeDump_sample settings sampleContainer plan true w.site
  have answer : (w.site.dumpTick settings Rig.sample.recorded).1 = .ok (some plan.dump) := by
    unfold Site.dumpTick
    rw [if_neg (not_not.2 free.status), free.container]
    dsimp only
    rw [planned]
    dsimp only
    rw [dumped]
  have performed : Event.tick.perform settings .sample w = some (.dumped (.ok (some plan.dump)),
      { w with site := (w.site.dumpTick settings Rig.sample.recorded).2 }) := by
    rw [Event.perform, ← Prod.mk.eta (p := w.site.dumpTick settings Rig.sample.recorded), answer]
  obtain ⟨_, _, ticks, _⟩ := ticks_of_perform performed
  have held : (w.site.dumpTick settings Rig.sample.recorded).2.holdings = w.site.holdings :=
    Site.holdings_dumpTick w.site
  exact ⟨plan.dump, _, performed, free.activity, ticks.status_eq.trans free.status,
    (congrArg Holdings.container held).trans free.container,
    (congrArg Holdings.bundle held).trans free.bundle,
    (congrArg (·.targets.head?) held).trans free.target⟩

def sampleFresh : Working Unit := sampleAfter [.run sampleContainer (.ofText "/")]

theorem sampleFresh_started : StartedFresh settings .sample sampleFresh :=
  ⟨.started sampleDisk (), sampleContainer, .ofText "/", ⟨_, _, _, .start⟩, rfl, rfl⟩

/-- An unhindered node can take as many dumps as there are numbers. -/
theorem exists_unhindered (positive : 1 ≤ settings.frequency.toNat) (n : Nat)
    (room : n < UInt64.size) :
    ∃ ms w, Course settings .sample sampleFresh ms w ∧ Unhindered (Site.targetOf "h" sampleJoin) w ∧
      (cadenceOf ms).length = n := by
  induction n with
  | zero =>
      have joined : Event.perform settings .sample (.message "h" (.join sampleJoin)) sampleFresh =
          some (.reply (.joined "c"), sampleAfter [.run sampleContainer (.ofText "/"),
            .message "h" (.join sampleJoin)]) := rfl
      exact ⟨_, _, .next .start joined, ⟨rfl, rfl, rfl, rfl, rfl⟩, rfl⟩
  | succ n ih =>
      obtain ⟨ms, w, course, free, count⟩ := ih (by omega)
      have keeps := (sampleFresh_started settings).keepsSchedule positive course
      have stands := keeps.stands (keeps.underway.not_past_of_running free.status)
      have last : lastSequence w.chain w.closed = n := by
        rw [stands.lastSequence_eq, count, Nat.zero_add]
      obtain ⟨d, w', performed, free'⟩ := free.tick settings (by omega)
      refine ⟨_, w', course.next performed, free', ?_⟩
      rw [cadenceOf_append, List.length_append, count]
      rfl

/-- The site once the node was asked to hand over its container. -/
def migratingSite (s : Site (Recorded Unit)) : Site (Recorded Unit) :=
  s.modify fun r => { r with status := .migrating, changes := r.changes + 1 }

theorem Unhindered.migrates {t : Target} {w : Working Unit} (free : Unhindered t w) :
    Event.perform settings .sample (.command (.migrate sampleContainer)) w =
      some (.outcome (.ok ()), ⟨.deciding, migratingSite w.site⟩) := by
  have registered : ¬ w.site.register.targets.isEmpty = true := by
    intro none
    have first := free.target
    rw [List.isEmpty_iff.1 none] at first
    cases first
  have changed : w.site.changeStatus .migrating = (.ok (), migratingSite w.site) := by
    have running : w.site.register.status = .running := free.status
    rw [Site.changeStatus, Register.changeStatus, running]
    rfl
  have asked : w.site.requestMigration sampleContainer = (.ok (), migratingSite w.site) := by
    unfold Site.requestMigration
    rw [free.container]
    dsimp only
    rw [if_neg (by simp), if_neg registered, changed]
  rw [Event.perform, Site.execute, asked, ← free.activity]
  rfl

theorem Unhindered.prepared {t : Target} {w : Working Unit} (free : Unhindered t w)
    (consecutive : Chain.Consecutive w.chain.dumps) (final : w.site.HasFinal) :
    ∃ m s, (migratingSite w.site).prepareHandoff settings Rig.sample.recorded = (.ok (t, m), s) ∧
      m.bundle = .ofText "/" := by
  obtain ⟨s₁, taken⟩ := takeFinalDumps_sample settings (s := migratingSite w.site) final
    sampleContainer
  obtain ⟨_, pre, full, dumps⟩ | ⟨⟨_, failed⟩, _⟩ := takeFinalDumps_cases taken
  · have some : s₁.register.chain.dumps ≠ [] := by
      rw [dumps.dumps_eq]
      simp
    have held : (s₁.completeTarget Rig.sample.recorded t).1 = true :=
      Chain.isHeldBy_of_delivered (fun _ _ _ => rfl)
        (fun none => some (List.map_eq_nil_iff.2 none)) t.key s₁.env
    let s₂ := (s₁.completeTarget Rig.sample.recorded t).2
    have completed : s₁.completeTarget Rig.sample.recorded t = (true, s₂) := Prod.ext held rfl
    have done : Chores settings Rig.sample.recorded s₁ s₂ := chores_completeTarget s₁ t
    have ordered := dumps.consecutive consecutive
    rw [← done.kept.chain] at ordered some
    obtain ⟨m, made⟩ := Rpc.Migrate.exists_new some ordered.ascending sampleContainer
      (.ofText "/") rfl
    obtain ⟨_, _, _, _, bundle⟩ := Rpc.Migrate.dumps_of_new made
    exact ⟨m, s₂, prepareHandoff_eq free.container free.bundle free.target taken completed
      made, bundle⟩
  · cases failed

theorem sampleFresh_ready : Ready settings sampleFresh :=
  .of_empty (sampleFresh_started settings).underway.1 rfl nofun

/-- A handoff may come after any number of ticks. -/
theorem exists_handoff (positive : 1 ≤ settings.frequency.toNat) {n : Nat}
    (room : n + 2 < UInt64.size) :
    ∃ ms w t m, Course settings .sample sampleFresh ms w ∧ w.activity = .handingOver t m ∧
      (cadenceOf ms).length = n ∧ m.bundle = .ofText "/" := by
  obtain ⟨ms, w, course, free, count⟩ := exists_unhindered settings positive n (by omega)
  have keeps := (sampleFresh_started settings).keepsSchedule positive course
  have stands := keeps.stands (keeps.underway.not_past_of_running free.status)
  have final : w.site.HasFinal := stands.finalDumps_iff.2 (by omega)
  have ready : Ready settings w := course.preserves (sampleFresh_ready settings) fun r h => r.step h
  obtain ⟨m, s, prepared, bundle⟩ := free.prepared settings ready.consecutive final
  have entered : Event.proceed.perform settings .sample ⟨.deciding, migratingSite w.site⟩ =
      some (.nothing, ⟨.entering .migrating, migratingSite w.site⟩) := rfl
  have sends := perform_prepared (w := ⟨.entering .migrating, migratingSite w.site⟩) rfl prepared
  have leads := ((course.next (free.migrates settings)).next entered).next sends
  refine ⟨_, _, _, m, leads, rfl, ?_, bundle⟩
  rw [cadenceOf_quiet (by simp), cadenceOf_quiet (by simp), cadenceOf_quiet (by simp), count]

end Sample

/-! ## Its line -/

/-- With a long period a handoff may name so many dumps that its line is dropped. -/
theorem exists_overrun (settings : Settings) (rare : 13107 ≤ settings.frequency.toNat) :
    ∃ ms w t m line, Course settings .sample sampleFresh ms w ∧ w.activity = .handingOver t m ∧
      m.bundle = .ofText "/" ∧ (Rpc.Message.migrate m).line = .ok line ∧
      Rpc.maxLine < line.length := by
  have positive : 1 ≤ settings.frequency.toNat := by omega
  obtain ⟨ms, w, t, m, course, sending, count, bundle⟩ :=
    exists_handoff settings positive (n := 13106) (by decide)
  have dumps := (course.grows positive (.fresh (sampleFresh_started settings))).handing t m sending
  rw [count, openAfter, if_pos (by omega)] at dumps
  have isText : Bytes.IsText m.bundle.bytes := by
    rw [bundle]
    exact Bytes.isText_ofText "/"
  obtain ⟨line, there⟩ := Rpc.Migrate.exists_line_iff.2 isText
  have long := m.dumps_lt_lineLength
  refine ⟨ms, w, t, m, line, course, sending, bundle, there, ?_⟩
  rw [Rpc.Migrate.length_line there, Rpc.maxLine]
  omega

/-- What a handoff message names, how long its line is, and what becomes of this line at the
listener of the target. The line fits as long as the period of the cadence is not too long. -/
theorem handoff_line {phase : Nat} {t : Target} {m : Rpc.Migrate}
    (positive : 1 ≤ settings.frequency.toNat) (begins : BeginsAt settings rig phase w₀)
    (course : Course settings rig w₀ ms w) (sending : w.activity = .handingOver t m) :
    m.names.length = openAfter settings.frequency phase (cadenceOf ms).length + 2 ∧
      ((∃ line, (Rpc.Message.migrate m).line = .ok line) ↔ Bytes.IsText m.bundle.bytes) ∧
      ∀ line, (Rpc.Message.migrate m).line = .ok line →
        line.length = m.lineLength ∧
          (settings.frequency.toNat ≤ 1658 → m.bundle.bytes.length ≤ 4096 →
            line.length ≤ Rpc.maxLine) ∧
          ∀ {τ : Type} (handle : Rpc.Session.Handler τ) (state : τ) (pieces : List Bytes),
            pieces.flatten = line →
            let done := Rpc.Session.run (Rpc.Session.noted handle) (state, []) (pieces.map .data)
            let answer := handle (.migrate m) state
            if line.length ≤ Rpc.maxLine then
              done.isOpen = true ∧ done.replies = [Rpc.Session.lineOf answer.1] ∧
                done.state = (answer.2, [.migrate m])
            else done.isOpen = false ∧ done.replies = [] ∧ done.state = (state, []) := by
  have dumps := (course.grows positive begins).handing t m sending
  have names : m.names.length = m.dumps.length := List.length_map ..
  refine ⟨names.trans dumps, Rpc.Migrate.exists_line_iff,
    fun line written => ⟨Rpc.Migrate.length_line written, ?_, ?_⟩⟩
  · intro rare short
    have few := openAfter_le settings.frequency phase (cadenceOf ms).length
    have bound := m.lineLength_le
    rw [Rpc.Migrate.length_line written, Rpc.maxLine]
    omega
  · intro τ handle state pieces sent
    rw [Rpc.Session.run_line handle written state sent]
    split
    · exact ⟨rfl, rfl, rfl⟩
    · exact ⟨rfl, rfl, rfl⟩

/-- The message of a handoff after one tick. -/
theorem handoff_line_sample :
    ∃ ms w t m line, Course .sample .sample sampleFresh ms w ∧ w.activity = .handingOver t m ∧
      m.names.length = 3 ∧ (Rpc.Message.migrate m).line = .ok line ∧
      line.length ≤ Rpc.maxLine ∧ ∀ pieces : List Bytes, pieces.flatten = line →
        (Rpc.Session.run (Rpc.Session.noted fun _ (n : Nat) => (.ack, n + 1)) (0, [])
          (pieces.map .data)).state = (1, [.migrate m]) := by
  obtain ⟨ms, w, t, m, course, sending, one, bundle⟩ :=
    exists_handoff .sample (n := 1) (by decide) (by decide)
  obtain ⟨names, writable, written⟩ :=
    handoff_line (by decide) (.fresh (sampleFresh_started .sample)) course sending
  obtain ⟨line, there⟩ := writable.2 (bundle ▸ Bytes.isText_ofText "/")
  obtain ⟨_, fits, handled⟩ := written line there
  have short := fits (by decide) (by rw [bundle]; decide)
  refine ⟨ms, w, t, m, line, course, sending, ?_, there, short, fun pieces sent => ?_⟩
  · rw [names, one]
    rfl
  · have taken := handled (fun _ (n : Nat) => (.ack, n + 1)) 0 pieces sent
    rw [if_pos short] at taken
    exact taken.2.2

/-- The period is 13107 dumps, and all of them but the full one are taken before the handoff. The
listener of the target closes the connection and has handled nothing. -/
theorem long_handoff_dropped :
    ∃ ms w t m line, Course { Settings.sample with frequency := 13107 } .sample sampleFresh ms w ∧
      StartedFresh { Settings.sample with frequency := 13107 } .sample sampleFresh ∧
      w.activity = .handingOver t m ∧ m.bundle.bytes.length ≤ 4096 ∧
      (Rpc.Message.migrate m).line = .ok line ∧ Rpc.maxLine < line.length ∧
      ∀ pieces : List Bytes, pieces.flatten = line →
        let done := Rpc.Session.run (Rpc.Session.noted fun _ (n : Nat) => (.ack, n + 1)) (0, [])
          (pieces.map .data)
        done.isOpen = false ∧ done.replies = [] ∧ done.state = (0, []) := by
  obtain ⟨ms, w, t, m, line, course, sending, bundle, there, long⟩ :=
    exists_overrun { Settings.sample with frequency := 13107 } (by decide)
  refine ⟨ms, w, t, m, line, course, sampleFresh_started _, sending, by rw [bundle]; decide, there,
    long, fun pieces sent => ?_⟩
  rw [Rpc.Session.run_line _ there 0 sent, if_neg (Nat.not_le.2 long)]
  exact ⟨rfl, rfl, rfl⟩

end Node

end LiveMigration
