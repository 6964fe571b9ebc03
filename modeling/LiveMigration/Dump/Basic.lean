/-!
Dumps and how one follows another. A dump has a kind, a place in the global sequence and an
offset: its distance from the last full dump, which steers the cadence. Sequence numbers are
64 bits wide and never wrap; a derivation beyond the last number has no result.
-/

namespace LiveMigration

namespace Dump

inductive Kind
  /-- Memory changed since the previous dump; cannot be restored by itself. -/
  | pre
  /-- The whole state of the container; ends a chain. -/
  | full
  /-- A full dump asked for by the operator, outside the cadence. -/
  | checkpoint
  deriving DecidableEq, Repr

def Kind.letter : Kind → Char
  | pre => 'p'
  | full => 'd'
  | checkpoint => 'c'

def Kind.ofLetter? : Char → Option Kind
  | 'p' => some pre
  | 'd' => some full
  | 'c' => some checkpoint
  | _ => none

def Kind.name : Kind → String
  | pre => "PreDump"
  | full => "FullDump"
  | checkpoint => "Checkpoint"

theorem Kind.ofLetter?_letter (k : Kind) : ofLetter? k.letter = some k := by
  cases k <;> rfl

theorem Kind.letter_of_ofLetter? {c : Char} {k : Kind} (h : ofLetter? c = some k) :
    k.letter = c := by
  unfold ofLetter? at h
  split at h <;> simp_all [letter] <;> subst h <;> rfl

end Dump

structure Dump where
  kind : Dump.Kind
  sequence : UInt64
  offset : UInt64
  deriving DecidableEq, Repr

namespace Dump

/-- The same snapshot; the offset is bookkeeping and plays no part. -/
def Same (a b : Dump) : Prop := a.kind = b.kind ∧ a.sequence = b.sequence

instance (a b : Dump) : Decidable (Same a b) := inferInstanceAs (Decidable (_ ∧ _))

/-- The origin of every derivation. -/
def first : Dump := ⟨.pre, 0, 0⟩

def isPre (d : Dump) : Bool := d.kind = .pre

def isFull (d : Dump) : Bool := d.kind = .full

def successor? (n : UInt64) : Option UInt64 :=
  if n.toNat + 1 < UInt64.size then some (n + 1) else none

theorem successor?_eq_some_iff {n m : UInt64} :
    successor? n = some m ↔ m.toNat = n.toNat + 1 := by
  unfold successor?
  split
  · rename_i h
    have hn : (n + 1).toNat = n.toNat + 1 := by
      rw [UInt64.toNat_add]
      simpa using Nat.mod_eq_of_lt h
    constructor
    · rintro ⟨⟩
      exact hn
    · intro hm
      rw [← hn] at hm
      rw [UInt64.toNat_inj.1 hm]
  · rename_i h
    have := m.toNat_lt_size
    constructor
    · intro h'
      cases h'
    · intro hm
      omega

def nextPre? (d : Dump) : Option Dump := do
  let sequence ← successor? d.sequence
  let offset ← successor? d.offset
  return ⟨.pre, sequence, offset⟩

def nextFull? (d : Dump) : Option Dump := do
  let sequence ← successor? d.sequence
  return ⟨.full, sequence, 0⟩

/-- The next dump of a cadence with a full dump at every `freq`-th derivation. -/
def next? (freq : UInt64) (d : Dump) : Option Dump :=
  if d.offset.toNat < freq.toNat - 1 then d.nextPre? else d.nextFull?

/-- The first pre-dump of a new chain, after a full dump. -/
def nextInNewChain? (d : Dump) : Option Dump := do
  let sequence ← successor? d.sequence
  return ⟨.pre, sequence, 0⟩

def checkpoint? (d : Dump) : Option Dump := do
  let sequence ← successor? d.sequence
  return ⟨.checkpoint, sequence, d.offset⟩

/-- The same dump at another distance from the last full dump; a full dump is at none. -/
def withOffset (d : Dump) (offset : UInt64) : Dump :=
  { d with offset := if d.isFull then 0 else offset }

end Dump

end LiveMigration
