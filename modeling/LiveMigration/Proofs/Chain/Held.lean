import LiveMigration.Proofs.Chain.Pass
import Mathlib.Data.List.Chain

/-!
Marks go by age: a target that holds a dump of a chain holds every older one. A pass keeps
this up, because it sends a dump only behind one that the target holds.
-/

namespace LiveMigration.Chain

variable {σ ε : Type}

/-- The marks of every target are on the oldest links. -/
def HeldInOrder (c : Chain) : Prop :=
  ∀ key, c.links.Pairwise fun l r => r.isHeldBy key = true → l.isHeldBy key = true

theorem heldInOrder_empty : empty.HeldInOrder := fun _ => .nil

theorem HeldInOrder.push {c : Chain} (h : c.HeldInOrder) (d : Dump) :
    (c.push d).HeldInOrder := by
  intro key
  refine List.pairwise_append.2 ⟨h key, List.pairwise_singleton _ _, ?_⟩
  intro l _ r hr held
  rw [List.mem_singleton.1 hr] at held
  cases held

theorem held_of_last {links : List Link} {key : String}
    (h : links.Pairwise fun l r => r.isHeldBy key = true → l.isHeldBy key = true)
    {last : Link} (hl : links.getLast? = some last) (held : last.isHeldBy key = true) :
    ∀ l ∈ links, l.isHeldBy key = true := by
  obtain ⟨front, rfl⟩ := List.getLast?_eq_some_iff.1 hl
  intro l mem
  rcases List.mem_append.1 mem with mem | mem
  · exact (List.pairwise_append.1 h).2.2 l mem last (by simp) held
  · rw [List.mem_singleton.1 mem]
    exact held

theorem HeldInOrder.all {c : Chain} (h : c.HeldInOrder) {key : String} {last : Link}
    (hl : c.latestLink? = some last) (held : last.isHeldBy key = true) :
    ∀ l ∈ c.links, l.isHeldBy key = true :=
  held_of_last (h key) hl held

theorem HeldInOrder.sends {send : Send σ ε} {key : String} {a b : Chain × σ}
    (h : Sends send key a b) (o : a.1.HeldInOrder) : b.1.HeldInOrder := by
  cases h with
  | lost => exact o
  | arrived front =>
      rename_i kept rest l s s' _
      intro other
      obtain ⟨before, behind, across⟩ := List.pairwise_append.1 (o other)
      obtain ⟨next, after⟩ := List.pairwise_cons.1 behind
      refine List.pairwise_append.2 ⟨before, List.pairwise_cons.2 ⟨?_, after⟩, ?_⟩
      · intro r hr held
        exact (isHeldBy_mark l key other).2 (.inl (next r hr held))
      · intro x hx r hr held
        rcases List.mem_cons.1 hr with rfl | hr
        · obtain held | rfl := (isHeldBy_mark l key other).1 held
          · exact across x hx l (by simp) held
          · cases hl : kept.getLast? with
            | none =>
                rw [List.getLast?_eq_none_iff.1 hl] at hx
                cases hx
            | some last => exact held_of_last before hl (front last hl) x hx
        · exact across x hx r (by simp [hr]) held

/-- A mark after a send was there before, or stands for the send. -/
theorem Sends.mark_cases {send : Send σ ε} {key : String} {a b : Chain × σ}
    (h : Sends send key a b) :
    ∀ r ∈ b.1.links, ∀ other, r.isHeldBy other = true →
      (∃ l ∈ a.1.links, l.dump = r.dump ∧ l.isHeldBy other = true) ∨
        other = key ∧ ∃ before, send r.dump before a.2 = (.ok (), b.2) := by
  cases h with
  | lost => exact fun r hr other held => .inl ⟨r, hr, rfl, held⟩
  | arrived front h =>
      rename_i kept rest l s s'
      intro r hr other held
      rcases List.mem_append.1 hr with hr | hr
      · exact .inl ⟨r, by simp [hr], rfl, held⟩
      rcases List.mem_cons.1 hr with rfl | hr
      · obtain held | rfl := (isHeldBy_mark l key other).1 held
        · exact .inl ⟨l, by simp, (dump_mark l key).symm, held⟩
        · refine .inr ⟨rfl, kept.getLast?.map Link.dump, ?_⟩
          rw [dump_mark]
          exact h
      · exact .inl ⟨r, by simp [hr], rfl, held⟩

/-! ## Consecutive dumps -/

/-- Every dump has the number after that of the dump before it. -/
def Consecutive (ds : List Dump) : Prop :=
  ds.IsChain fun a b => b.sequence.toNat = a.sequence.toNat + 1

theorem Consecutive.concat {ds : List Dump} (h : Consecutive ds) {d : Dump}
    (next : ∀ last ∈ ds.getLast?, d.sequence.toNat = last.sequence.toNat + 1) :
    Consecutive (ds ++ [d]) := by
  refine List.isChain_append.2 ⟨h, .singleton d, ?_⟩
  rintro last hl _ ⟨⟩
  exact next last hl

theorem Consecutive.ascending {ds : List Dump} (h : Consecutive ds) :
    ds.Pairwise fun a b => a.sequence < b.sequence := by
  have lt : ds.IsChain fun a b => a.sequence.toNat < b.sequence.toNat :=
    h.imp fun a b next => by omega
  have trans : Trans (fun a b : Dump => a.sequence.toNat < b.sequence.toNat)
      (fun a b : Dump => a.sequence.toNat < b.sequence.toNat)
      (fun a b : Dump => a.sequence.toNat < b.sequence.toNat) := ⟨fun h k => Nat.lt_trans h k⟩
  exact lt.pairwise.imp fun lt => UInt64.lt_iff_toNat_lt.2 lt

end LiveMigration.Chain
