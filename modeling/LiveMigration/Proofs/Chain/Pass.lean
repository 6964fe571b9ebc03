import LiveMigration.Chain.Sync
import Mathlib.Logic.Relation

/-!
A replication pass as a sequence of single sends. Every send is of the first dump of a chain,
or of one whose predecessor the target is known to hold; this is all that the passes have in
common, and what is preserved by one send is preserved by every pass.
-/

namespace LiveMigration.Chain

open Relation

variable {σ ε : Type}

/-- One send of a pass to a target: the dump behind `kept` is sent with its predecessor, which
the target holds if there is one, and is marked if it arrives. -/
inductive Sends (send : Send σ ε) (key : String) : Chain × σ → Chain × σ → Prop
  | arrived {kept rest : List Link} {l : Link} {s s' : σ}
      (front : ∀ last ∈ kept.getLast?, last.isHeldBy key = true)
      (h : send l.dump (kept.getLast?.map Link.dump) s = (.ok (), s')) :
      Sends send key (⟨kept ++ l :: rest⟩, s) (⟨kept ++ l.mark key :: rest⟩, s')
  | lost {kept rest : List Link} {l : Link} {s s' : σ} {e : ε}
      (front : ∀ last ∈ kept.getLast?, last.isHeldBy key = true)
      (h : send l.dump (kept.getLast?.map Link.dump) s = (.error e, s')) :
      Sends send key (⟨kept ++ l :: rest⟩, s) (⟨kept ++ l :: rest⟩, s')

@[simp] theorem dump_mark (l : Link) (key : String) : (l.mark key).dump = l.dump := by
  unfold Link.mark
  split <;> rfl

theorem isHeldBy_mark (l : Link) (key other : String) :
    (l.mark key).isHeldBy other = true ↔ l.isHeldBy other = true ∨ other = key := by
  unfold Link.mark
  split
  · rename_i h
    constructor
    · exact .inl
    · rintro (ho | rfl)
      · exact ho
      · exact h
  · simp [Link.isHeldBy, List.contains_eq_mem]

theorem isHeldBy_mark_self (l : Link) (key : String) : (l.mark key).isHeldBy key = true :=
  (isHeldBy_mark l key key).2 (.inr rfl)

theorem sends_sendLinks (send : Send σ ε) (key : String) (links : List Link) :
    ∀ (kept : List Link) (s : σ), (∀ last ∈ kept.getLast?, last.isHeldBy key = true) →
      ReflTransGen (Sends send key) (⟨kept ++ links⟩, s)
        (⟨kept ++ (sendLinks send key (kept.getLast?.map Link.dump) links s).links⟩,
          (sendLinks send key (kept.getLast?.map Link.dump) links s).state) := by
  induction links with
  | nil => exact fun _ _ _ => .refl
  | cons l links ih =>
      intro kept s front
      unfold sendLinks
      split
      · rename_i s' h
        have one : Sends send key (⟨kept ++ l :: links⟩, s) (⟨kept ++ l.mark key :: links⟩, s') :=
          .arrived front h
        have last : (kept ++ [l.mark key]).getLast? = some (l.mark key) := by simp
        have rest := ih (kept ++ [l.mark key]) s' (by
          rw [last]
          rintro _ ⟨⟩
          exact isHeldBy_mark_self l key)
        rw [last] at rest
        simp only [Option.map_some, dump_mark, List.append_assoc, List.singleton_append] at rest
        exact .head one rest
      · rename_i e s' h
        exact .single (.lost front h)

theorem last_heldPart (c : Chain) (key : String) :
    ∀ last ∈ (c.heldPart key).getLast?, last.isHeldBy key = true := by
  intro last h
  rw [heldPart, List.getLast?_reverse] at h
  cases hd : c.links.reverse.dropWhile (!·.isHeldBy key) with
  | nil =>
      rw [hd] at h
      cases h
  | cons l ls =>
      rw [hd] at h
      cases h
      have hne : c.links.reverse.dropWhile (!·.isHeldBy key) ≠ [] := by
        rw [hd]
        exact List.cons_ne_nil _ _
      have := List.head_dropWhile_not (fun l : Link => !l.isHeldBy key) hne
      simpa [hd] using this

theorem sends_sync (c : Chain) (send : Send σ ε) (key : String) (s : σ) :
    ReflTransGen (Sends send key) (c, s) (c.sync send key s).2 := by
  have h := sends_sendLinks send key (c.pendingPart key) (c.heldPart key) s (c.last_heldPart key)
  rw [heldPart_append_pendingPart] at h
  exact h

theorem sends_sendAll (c : Chain) (send : Send σ ε) (key : String) (s : σ) :
    ReflTransGen (Sends send key) (c, s) (c.sendAll send key s).2 := by
  have h := sends_sendLinks send key c.links [] s (by simp)
  exact h

theorem Sends.dumps_eq {send : Send σ ε} {key : String} {a b : Chain × σ}
    (h : Sends send key a b) : b.1.dumps = a.1.dumps := by
  cases h with
  | arrived => simp [dumps]
  | lost => rfl

theorem latest?_eq (c : Chain) : c.latest? = c.dumps.getLast? := by
  simp [latest?, latestLink?, dumps, List.getLast?_map]

theorem latest?_eq_none_iff {c : Chain} : c.latest? = none ↔ c.dumps = [] := by
  rw [latest?_eq, List.getLast?_eq_none_iff]

end LiveMigration.Chain
