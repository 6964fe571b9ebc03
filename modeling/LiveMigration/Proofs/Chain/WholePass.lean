import LiveMigration.Proofs.Chain.Bookkeeping
import Mathlib.Data.List.TakeWhile

/-!
The two passes side by side. `sync` goes back from the latest dump to the first that the target
holds and sends what comes behind it; `sendAll` starts at the oldest dump and looks at no marks.
They send the same exactly if there is no mark of the target, and then they agree in all else.
-/

namespace LiveMigration.Chain

variable {σ ε : Type} {c : Chain} {key : String} {send : Send σ ε} {s : σ}

theorem heldPart_eq_nil_iff :
    c.heldPart key = [] ↔ ∀ l ∈ c.links, l.isHeldBy key = false := by
  rw [heldPart, List.reverse_eq_nil_iff, List.dropWhile_eq_nil_iff]
  simp

/-- If there is no mark on the way back, it comes to where `sendAll` starts. -/
theorem sync_eq_sendAll (unmarked : ∀ l ∈ c.links, l.isHeldBy key = false) (send : Send σ ε)
    (s : σ) : c.sync send key s = c.sendAll send key s := by
  have held := heldPart_eq_nil_iff.2 unmarked
  have pending := c.heldPart_append_pendingPart key
  rw [held, List.nil_append] at pending
  rw [sync, sendAll, held, pending]
  rfl

theorem syncAttempts_eq_sendAllAttempts (unmarked : ∀ l ∈ c.links, l.isHeldBy key = false) :
    c.syncAttempts send key s = c.sendAllAttempts send key s := by
  rw [syncAttempts, sync_eq_sendAll unmarked, sendAllAttempts]

/-! ## With a mark -/

theorem before_ne_none_of_mem {d : Dump} {ds : List Dump} {p : Dump × Option Dump}
    (mem : p ∈ pairsBehind (some d) ds) : p.2 ≠ none := by
  have there := (List.of_mem_zip mem).2
  intro none
  rw [none] at there
  simp at there

theorem exists_first_attempt (p : Dump × Option Dump) (todo : List (Dump × Option Dump))
    (sent : Nat) : ∃ a ∈ attemptsOf (p :: todo) sent, a.before = p.2 := by
  cases sent with
  | zero => exact ⟨⟨p.1, p.2, false⟩, List.mem_cons_self .., rfl⟩
  | succ sent => exact ⟨⟨p.1, p.2, true⟩, List.mem_cons_self .., rfl⟩

/-- Behind a mark every dump has a predecessor, so that the oldest one is not sent. -/
theorem unmarked_of_same_attempts
    (same : c.syncAttempts send key s = c.sendAllAttempts send key s) :
    ∀ l ∈ c.links, l.isHeldBy key = false := by
  refine heldPart_eq_nil_iff.1 (List.getLast?_eq_none_iff.1 (Option.eq_none_iff_forall_ne_some.2 ?_))
  intro last marked
  cases links : c.links with
  | nil =>
      rw [heldPart, links] at marked
      cases marked
  | cons oldest rest =>
      have pairs : c.pairs =
          (oldest.dump, none) :: pairsBehind (some oldest.dump) (rest.map Link.dump) := by
        rw [Chain.pairs, dumps, links, List.map_cons, pairsBehind_cons]
      obtain ⟨a, mem, first⟩ := exists_first_attempt (oldest.dump, none)
        (pairsBehind (some oldest.dump) (rest.map Link.dump)) (c.sendAll send key s).1
      rw [← pairs, ← sendAllAttempts_eq, ← same, syncAttempts_eq, marked] at mem
      exact before_ne_none_of_mem (mem_of_mem_attemptsOf mem) first

/-! ## With nothing lost -/

theorem attemptsOf_length (todo : List (Dump × Option Dump)) :
    attemptsOf todo todo.length = todo.map fun p => ⟨p.1, p.2, true⟩ := by
  rw [attemptsOf, List.take_length, List.drop_length]
  simp

theorem sendAll_of_arrived (arrived : ∀ a ∈ c.sendAllAttempts send key s, a.arrived = true) :
    (c.sendAll send key s).1 = c.length ∧
      (c.sendAll send key s).2.1 = ⟨c.links.map (·.mark key)⟩ := by
  have sent := (passed_sendAll c send key s).all_of_arrived arrived
  rw [Nat.zero_add] at sent
  have links := links_sendLinks send key none c.links s
  rw [show (sendLinks send key none c.links s).sent = c.links.length from sent, List.take_length,
    List.drop_length, List.append_nil] at links
  exact ⟨sent, congrArg Chain.mk links⟩

theorem isDrained_mark (c : Chain) (key : String) : IsDrained ⟨c.links.map (·.mark key)⟩ key := by
  intro l mem
  obtain ⟨l, -, rfl⟩ := List.mem_map.1 mem
  exact isHeldBy_mark_self l key

/-- To a target without a mark both passes are the same, whatever is lost on the way: the same
dumps are sent with the same predecessors, as many arrive, and the same marks are left. With a
mark they are not. And a `sendAll` that loses nothing has sent every dump, oldest first and once
each, whatever was marked, and all of them are marked. -/
theorem whole_pass (c : Chain) (send : Send σ ε) (key : String) (s : σ) :
    ((∀ l ∈ c.links, l.isHeldBy key = false) → c.sync send key s = c.sendAll send key s) ∧
    ((∀ l ∈ c.links, l.isHeldBy key = false) ↔
      c.syncAttempts send key s = c.sendAllAttempts send key s) ∧
    ((∀ a ∈ c.sendAllAttempts send key s, a.arrived = true) →
      c.sendAllAttempts send key s = c.pairs.map (fun p => ⟨p.1, p.2, true⟩) ∧
      (c.sendAll send key s).1 = c.length ∧
      (c.sendAll send key s).2.1 = ⟨c.links.map (·.mark key)⟩ ∧
      (c.sendAll send key s).2.1.IsDrained key) := by
  refine ⟨fun unmarked => sync_eq_sendAll unmarked send s,
    ⟨syncAttempts_eq_sendAllAttempts, unmarked_of_same_attempts⟩, fun arrived => ?_⟩
  obtain ⟨sent, links⟩ := sendAll_of_arrived arrived
  refine ⟨?_, sent, links, links ▸ isDrained_mark c key⟩
  rw [sendAllAttempts_eq, sent, ← length_pairs, attemptsOf_length]

/-- Marks in no order at all. -/
def sampleMarked : Chain :=
  ⟨[⟨⟨.pre, 1, 0⟩, ["b"]⟩, ⟨⟨.pre, 2, 1⟩, ["a"]⟩, ⟨⟨.full, 3, 0⟩, ["b"]⟩]⟩

/-- One target holds nothing, and the second dump is lost; the other one holds the second dump
alone, and gets all of them. -/
theorem whole_pass_sample :
    sampleMarked.sync (losing [⟨.pre, 2, 1⟩]) "c" () =
        sampleMarked.sendAll (losing [⟨.pre, 2, 1⟩]) "c" () ∧
      sampleMarked.syncAttempts (losing [⟨.pre, 2, 1⟩]) "c" () =
        [⟨⟨.pre, 1, 0⟩, none, true⟩, ⟨⟨.pre, 2, 1⟩, some ⟨.pre, 1, 0⟩, false⟩] ∧
      (sampleMarked.sendAll (losing []) "a" ()).1 = 3 ∧
      (sampleMarked.sendAll (losing []) "a" ()).2.1.IsDrained "a" := by
  obtain ⟨same, attempts, -⟩ := whole_pass sampleMarked (losing [⟨.pre, 2, 1⟩]) "c" ()
  obtain ⟨-, -, whole⟩ := whole_pass sampleMarked (losing []) "a" ()
  have unmarked : ∀ l ∈ sampleMarked.links, l.isHeldBy "c" = false := by decide
  have arrived : ∀ a ∈ sampleMarked.sendAllAttempts (losing []) "a" (), a.arrived = true := by
    decide
  obtain ⟨-, sent, -, drained⟩ := whole arrived
  refine ⟨same unmarked, (attempts.1 unmarked).trans ?_, sent, drained⟩
  decide

end LiveMigration.Chain
