import LiveMigration.Proofs.Cadence.Phase
import LiveMigration.Proofs.Node.Deeds

/-!
The schedule of the cadence. Whatever else happens to a running node, the dumps that its
ticks take are numbered one after another, every one at a multiple of the period is full, and
each builds on the one before it unless that was full.
-/

namespace LiveMigration.Node

open Cadence

variable {σ : Type} {settings : Settings} {rig : Rig σ}

def Moment.asked? (m : Moment σ) : Option Engine.Call :=
  match m.after.deeds.drop m.before.deeds.length with
  | .called c _ :: _ => some c
  | _ => none

/-- The dump that a tick took, with what was asked of the engine. -/
def Moment.taken? (m : Moment σ) : Option (Dump × Option Engine.Call) :=
  match m.answer with
  | .dumped (.ok (some d)) => some (d, m.asked?)
  | _ => none

/-- The dumps that the ticks of a course took, oldest first. -/
def cadenceOf (ms : List (Moment σ)) : List (Dump × Option Engine.Call) :=
  ms.filterMap Moment.taken?

/-- What a cadence dump should be, given its number, its phase and the dump before it. -/
structure Scheduled (settings : Settings) (sequence phase : Nat) (last : Option Dump)
    (taken : Dump × Option Engine.Call) : Prop where
  sequence : taken.1.sequence.toNat = sequence
  kind : taken.1.kind = kindOf settings.frequency phase
  asked : ∃ id, taken.2 = some (match taken.1.kind with
    | .pre => .preDump id (taken.1.pathIn settings.dumpPath) (parentAfter last)
    | _ => .dump id (taken.1.pathIn settings.dumpPath) (parentAfter last) true)

def lastOf (taken : List (Dump × Option Engine.Call)) : Option Dump :=
  taken.getLast?.map Prod.fst

/-- The cadence of a node that had taken dumps up to some number and phase when its course
began. -/
structure KeepsSchedule (settings : Settings) (sequence phase : Nat) (ms : List (Moment σ))
    (w : Working σ) : Prop where
  underway : Underway w
  taken : ∀ n t, (cadenceOf ms)[n]? = some t →
    Scheduled settings (sequence + n + 1) (phase + n + 1) (lastOf ((cadenceOf ms).take n)) t
  stands : ¬ Past w → Stands settings.frequency (sequence + (cadenceOf ms).length)
    (phase + (cadenceOf ms).length) (lastOf (cadenceOf ms)) (position w.chain w.closed)

theorem cadenceOf_append (ms : List (Moment σ)) (m : Moment σ) :
    cadenceOf (ms ++ [m]) = cadenceOf ms ++ m.taken?.toList := by
  unfold cadenceOf
  rw [List.filterMap_append]
  cases h : m.taken? <;> simp [h]

theorem cadenceOf_quiet {ms : List (Moment σ)} {w w' : Working σ} {e : Event} {a : Answer}
    (quiet : ∀ d, a ≠ .dumped (.ok (some d))) :
    cadenceOf (ms ++ [⟨e, a, w, w'⟩]) = cadenceOf ms := by
  have none : Moment.taken? ⟨e, a, w, w'⟩ = none := by
    unfold Moment.taken?
    split
    · rename_i d h
      exact absurd h (quiet d)
    · rfl
  rw [cadenceOf_append, none, Option.toList_none, List.append_nil]

theorem Ticks.asked?_eq {plan : Plan} {w w' : Working σ} {e : Event} {a : Answer}
    (h : Ticks settings rig.recorded plan w.site w'.site) :
    ∃ id, Moment.asked? ⟨e, a, w, w'⟩ = some (dumpCall settings id plan true) := by
  obtain ⟨id, taken, synced, _, takes, done, last⟩ := h.steps
  have deeds : w'.deeds = synced.env.deeds := by
    rw [Working.deeds, last, env_closeBehind]
  obtain ⟨more, grown⟩ := done.deeds_prefix
  refine ⟨id, ?_⟩
  unfold Moment.asked?
  dsimp only
  rw [deeds, ← grown, takes.deeds_eq, List.append_assoc, Working.deeds, List.drop_left]
  rfl

/-- Where the cadence stands after a tick. -/
theorem Ticks.stands {plan : Plan} {s s' : Site σ} (positive : 1 ≤ settings.frequency.toNat)
    {sequence phase : Nat} {last : Option Dump} (h : Ticks settings rig plan s s')
    (stands : Stands settings.frequency sequence phase last
      (position s.register.chain s.register.closed)) :
    Stands settings.frequency (sequence + 1) (phase + 1) (some plan.dump)
      (position s'.register.chain s'.register.closed) := by
  obtain ⟨hs, hk, _, ho⟩ := stands.next positive h.planned
  obtain ⟨id, taken, synced, _, takes, done, rfl⟩ := h.steps
  have latest : synced.register.chain.latest? = some plan.dump := by
    rw [Chain.latest?_eq, done.kept.chain, takes.dumps_eq, List.getLast?_concat]
  refine stands_of_push hs hk ho ?_ ?_
  · intro pre
    unfold closeBehind Dump.isFull
    rw [pre]
    exact latest
  · intro full
    unfold closeBehind Dump.isFull
    rw [full]
    exact ⟨rfl, latest⟩

theorem forall_getElem?_concat {P : Nat → Option Dump → Dump × Option Engine.Call → Prop}
    {l : List (Dump × Option Engine.Call)} {x : Dump × Option Engine.Call}
    (old : ∀ n t, l[n]? = some t → P n (lastOf (l.take n)) t)
    (new : P l.length (lastOf l) x) :
    ∀ n t, (l ++ [x])[n]? = some t → P n (lastOf ((l ++ [x]).take n)) t := by
  intro n t ht
  have bound : n < (l ++ [x]).length := (List.getElem?_eq_some_iff.1 ht).1
  rw [List.length_append, List.length_singleton] at bound
  by_cases h : n < l.length
  · rw [List.getElem?_append_left h] at ht
    rw [List.take_append_of_le_length (Nat.le_of_lt h)]
    exact old n t ht
  · obtain rfl : n = l.length := by omega
    rw [List.getElem?_concat_length] at ht
    rw [List.take_left]
    cases ht
    exact new

theorem KeepsSchedule.quiet {sequence phase : Nat} {ms : List (Moment σ)} {w w' : Working σ}
    {e : Event} {a : Answer} (k : KeepsSchedule settings sequence phase ms w)
    (underway : Underway w') (quiet : ∀ d, a ≠ .dumped (.ok (some d)))
    (stands : ¬ Past w' → ¬ Past w ∧
      position w'.chain w'.closed = position w.chain w.closed) :
    KeepsSchedule settings sequence phase (ms ++ [⟨e, a, w, w'⟩]) w' := by
  have same : cadenceOf (ms ++ [⟨e, a, w, w'⟩]) = cadenceOf ms := cadenceOf_quiet quiet
  refine ⟨underway, ?_, ?_⟩
  · rw [same]
    exact k.taken
  · intro early
    obtain ⟨before, position⟩ := stands early
    rw [same, position]
    exact k.stands before

theorem KeepsSchedule.step {sequence phase : Nat} {ms : List (Moment σ)} {w w' : Working σ}
    {e : Event} {a : Answer} (positive : 1 ≤ settings.frequency.toNat)
    (k : KeepsSchedule settings sequence phase ms w)
    (h : e.perform settings rig w = some (a, w')) :
    KeepsSchedule settings sequence phase (ms ++ [⟨e, a, w, w'⟩]) w' := by
  obtain ⟨underway, works⟩ := k.underway.step h
  have early (later : ¬ Past w') : ¬ Past w := fun past => later (past.step k.underway h)
  cases works with
  | chores quiet done => exact k.quiet underway quiet fun later => ⟨early later, done.kept.position⟩
  | rests quiet rests =>
      refine k.quiet underway quiet fun later => ⟨early later, ?_⟩
      rw [Working.chain, Working.closed, rests.chain, rests.closed]
  | received => exact k.quiet underway (by simp) fun later => ⟨early later, rfl⟩
  | handsOver _ _ now => exact k.quiet underway (by simp) fun later => absurd (.inl ⟨_, _, now⟩) later
  | fallsShort _ _ now =>
      exact k.quiet underway (by simp) fun later => absurd (.inr (.inl ⟨_, now⟩)) later
  | ticks plan ticks before _ =>
      obtain ⟨id, asked⟩ := ticks.asked?_eq (e := e) (a := .dumped (.ok (some plan.dump)))
      have stands := k.stands before
      obtain ⟨hs, hk, hp, _⟩ := stands.next positive ticks.planned
      have grown : cadenceOf (ms ++ [⟨e, .dumped (.ok (some plan.dump)), w, w'⟩]) =
          cadenceOf ms ++ [(plan.dump, some (dumpCall settings id plan true))] := by
        rw [cadenceOf_append]
        unfold Moment.taken?
        dsimp only
        rw [asked]
        rfl
      refine ⟨underway, ?_, ?_⟩
      · rw [grown]
        refine forall_getElem?_concat k.taken ⟨hs, hk, id, ?_⟩
        unfold dumpCall
        rw [hp]
        cases hd : plan.dump.kind with
        | pre => rfl
        | full => rfl
        | checkpoint => rfl
      · intro _
        have after := ticks.stands positive stands
        rw [grown, List.length_append, List.length_singleton, lastOf, List.getLast?_concat]
        exact after

theorem KeepsSchedule.course {sequence phase : Nat} {ms : List (Moment σ)} {w₀ w : Working σ}
    (positive : 1 ≤ settings.frequency.toNat) (course : Course settings rig w₀ ms w)
    (underway : Underway w₀)
    (stands : Stands settings.frequency sequence phase none (position w₀.chain w₀.closed)) :
    KeepsSchedule settings sequence phase ms w := by
  induction course with
  | start => exact ⟨underway, by simp [cadenceOf], fun _ => stands⟩
  | next _ h ih => exact ih.step positive h

/-- The schedule of the cadence: from a fresh start, and from the restore of a dump. -/
theorem cadence_schedule {w₀ w : Working σ} {ms : List (Moment σ)}
    (positive : 1 ≤ settings.frequency.toNat) (course : Course settings rig w₀ ms w) :
    (StartedFresh settings rig w₀ → ∀ n t, (cadenceOf ms)[n]? = some t →
      Scheduled settings (n + 1) (n + 2) (lastOf ((cadenceOf ms).take n)) t) ∧
    ∀ latest, Restored settings rig latest w₀ → ∀ n t, (cadenceOf ms)[n]? = some t →
      Scheduled settings (latest.sequence.toNat + n + 1) (n + 1)
        (lastOf ((cadenceOf ms).take n)) t := by
  refine ⟨?_, ?_⟩
  · intro fresh n t ht
    obtain ⟨underway, _, empty, none⟩ := fresh.underway
    have stands : Stands settings.frequency 0 1 Option.none (position w₀.chain w₀.closed) := by
      have latest : w₀.chain.latest? = Option.none := by
        rw [Chain.latest?_eq, empty]
        rfl
      have closing : w₀.closed.bind Chain.latest? = Option.none := by
        rw [Option.map_eq_none_iff.1 none]
        rfl
      unfold position
      rw [latest, closing]
      exact ⟨rfl, rfl, Nat.mod_eq_of_lt (by omega)⟩
    have keeps := KeepsSchedule.course positive course underway stands
    have := keeps.taken n t ht
    rw [Nat.zero_add, Nat.add_comm 1 n] at this
    exact this
  · intro latest restored n t ht
    obtain ⟨underway, empty, closing⟩ := restored.underway
    have stands : Stands settings.frequency latest.sequence.toNat 0 none
        (position w₀.chain w₀.closed) := by
      have none : w₀.chain.latest? = none := by
        rw [Chain.latest?_eq, empty]
        rfl
      unfold position
      rw [none, closing]
      exact ⟨rfl, nofun, Nat.zero_mod _⟩
    have keeps := KeepsSchedule.course positive course underway stands
    have := keeps.taken n t ht
    rw [Nat.zero_add] at this
    exact this

def sampleHandoff : Rpc.Migrate where
  dumps := [⟨.full, 1, 0⟩]
  container := sampleContainer
  bundle := ⟨[Path.slash]⟩
  nonempty := by decide
  ascending := rfl
  named := by decide
  bundled := rfl

/-- Two ticks after a fresh start, and one after the restore of the first full dump. -/
theorem cadence_schedule_sample :
    (∃ w₀ ms w t, Course .sample .sample w₀ ms w ∧ StartedFresh .sample .sample w₀ ∧
      (cadenceOf ms)[1]? = some t ∧
      Scheduled .sample 2 3 (lastOf ((cadenceOf ms).take 1)) t) ∧
    ∃ w₀ ms w t, Course .sample .sample w₀ ms w ∧
      Restored .sample .sample ⟨.full, 1, 0⟩ w₀ ∧ (cadenceOf ms)[0]? = some t ∧
      Scheduled .sample 2 1 (lastOf ((cadenceOf ms).take 0)) t := by
  refine ⟨?_, ?_⟩
  · let fresh : Working Unit := sampleAfter [.run sampleContainer ⟨[Path.slash]⟩]
    have started : StartedFresh .sample .sample fresh :=
      ⟨.started sampleDisk (), sampleContainer, ⟨[Path.slash]⟩, ⟨_, _, _, .start⟩, rfl, rfl⟩
    have course : Course .sample .sample fresh _ _ :=
      .next (e := .tick) (.next (e := .tick) .start rfl) rfl
    exact ⟨_, _, _, _, course, started, rfl,
      (cadence_schedule (by decide) course).1 started 1 _ rfl⟩
  · let restored : Working Unit :=
      sampleAfter [.message "h" (.migrate sampleHandoff), .proceed, .proceed]
    have begun : Restored .sample .sample ⟨.full, 1, 0⟩ restored :=
      ⟨_, ⟨sampleDisk, (), _, .next (e := .proceed)
        (.next (e := .message "h" (.migrate sampleHandoff)) .start rfl) rfl⟩, rfl, rfl, rfl, rfl⟩
    have course : Course .sample .sample restored _ _ :=
      .next (e := .tick) (.next (e := .proceed) .start rfl) rfl
    exact ⟨_, _, _, _, course, begun, rfl,
      (cadence_schedule (by decide) course).2 _ begun 0 _ rfl⟩

end LiveMigration.Node
