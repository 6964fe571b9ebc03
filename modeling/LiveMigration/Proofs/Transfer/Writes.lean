import LiveMigration.Proofs.Transfer.AtomicReceipt
import LiveMigration.Proofs.Transfer.Stream

/-!
What the headers of a stream write, and where. What stands at a place in the end is what was
written there last, so writing everything once more changes nothing. A place that is written
once as the directory of a dump, as a file or as a link is never written as anything else.
-/

namespace LiveMigration.Transfer

open Lineage

/-! ## Writing -/

/-- Places with what is put there, or with nothing for what is removed; the last one first. -/
abbrev Writes := List (Location × Option Entry)

/-- What stands at a place after everything was written. -/
def after : Writes → (Location → Option Entry) → Location → Option Entry
  | [], held, l => held l
  | (m, v) :: ws, held, l => if l = m then v else after ws held l

section

variable {ws ws' : Writes} {held held' : Location → Option Entry} {l : Location}

theorem after_append (ws ws' : Writes) (held : Location → Option Entry) :
    after (ws ++ ws') held = after ws (after ws' held) := by
  induction ws with
  | nil => rfl
  | cons w ws ih =>
      funext l
      rw [List.cons_append, after, after, ih]

/-- To write what is there already changes nothing. -/
theorem after_of_there {m : Location} {v : Option Entry} (there : held m = v) :
    after [(m, v)] held l = held l := by
  rw [after]
  split
  · rename_i same
    rw [same, there]
  · rfl

/-- What is written over is as if it had not been written. -/
theorem after_over (m : Location) (v v' : Option Entry) (held : Location → Option Entry) :
    after [(m, v)] (after [(m, v')] held) = after [(m, v)] held := by
  funext l
  by_cases here : l = m <;> simp [after, here]

/-- The last write decides, or what was there if there is none. -/
theorem after_cases (ws : Writes) (held : Location → Option Entry) (l : Location) :
    (l, after ws held l) ∈ ws ∨ (∀ v, (l, v) ∉ ws) ∧ after ws held l = held l := by
  induction ws with
  | nil => exact .inr ⟨fun v => List.not_mem_nil, rfl⟩
  | cons w ws ih =>
      obtain ⟨m, v⟩ := w
      rw [after]
      by_cases here : l = m
      · rw [if_pos here, here]
        exact .inl (List.mem_cons_self ..)
      · rw [if_neg here]
        refine ih.imp (List.mem_cons_of_mem _) fun untouched => ⟨fun v' mem => ?_, untouched.2⟩
        obtain same | mem := List.mem_cons.1 mem
        · exact here (Prod.mk.inj same).1
        · exact untouched.1 v' mem

/-- What was there before is no matter where something is written. -/
theorem after_congr (h : (∃ v, (l, v) ∈ ws) ∨ held l = held' l) :
    after ws held l = after ws held' l := by
  induction ws with
  | nil =>
      obtain ⟨v, none⟩ | same := h
      · exact absurd none List.not_mem_nil
      · exact same
  | cons w ws ih =>
      obtain ⟨m, v⟩ := w
      rw [after, after]
      split
      · rfl
      rename_i elsewhere
      refine ih (h.imp_left ?_)
      rintro ⟨v', mem⟩
      obtain same | mem := List.mem_cons.1 mem
      · exact absurd (Prod.mk.inj same).1 elsewhere
      · exact ⟨v', mem⟩

/-- Writing everything once more changes nothing. -/
theorem after_after (ws : Writes) (held : Location → Option Entry) :
    after ws (after ws held) = after ws held := by
  funext l
  obtain written | ⟨_, kept⟩ := after_cases ws held l
  · exact after_congr (.inl ⟨_, written⟩)
  · exact after_congr (.inr kept)

end

/-! ## Headers -/

/-- Where the directory of a dump stands. -/
def dumpPlace (k : Location) (dump : String) : Location := k ++ [Bytes.ofText dump]

def linkPlace (k : Location) (dump : String) : Location := dumpPlace k dump ++ [linkEntry]

theorem linkPlace_ne_nil (k : Location) (dump : String) : linkPlace k dump ≠ [] := by
  simp [linkPlace]

/-- What a header writes with the bytes behind it. -/
def writes (k : Location) : Header × Bytes → Writes
  | (.file dump name _ _, content) =>
    [(temporaryPlace (dumpPlace k dump) name, none),
      (finalPlace (dumpPlace k dump) name, some (.file content)),
      (dumpPlace k dump, some .directory)]
  | (.parentLink dump pointsTo, _) =>
    [(linkPlace k dump, some (.link (Bytes.ofText pointsTo))),
      (dumpPlace k dump, some .directory)]
  | (.done dump, _) => [(dumpPlace k dump, some .directory)]

/-- What a stream writes. -/
def history (k : Location) : List (Header × Bytes) → Writes
  | [] => []
  | p :: ps => history k ps ++ writes k p

theorem mem_history {k : Location} {ps : List (Header × Bytes)} {w : Location × Option Entry} :
    w ∈ history k ps ↔ ∃ p ∈ ps, w ∈ writes k p := by
  induction ps with
  | nil => simp [history]
  | cons p ps ih => simp [history, ih, or_comm]

/-! ## What can stand at a place -/

/-- What a receiver puts at a place, by the kind of the place: the directories of dumps, in them
files or nothing, and links at the place of the link. -/
inductive Proper (k : Location) : Location → Option Entry → Prop
  | directory (dump : Bytes) : Proper k (k ++ [dump]) (some .directory)
  | file (dump : Bytes) {name : Bytes} (other : name ≠ linkEntry) {v : Option Entry}
      (isFile : ∀ e, v = some e → ∃ content, e = .file content) :
      Proper k (k ++ [dump] ++ [name]) v
  | link (dump target : Bytes) : Proper k (k ++ [dump] ++ [linkEntry]) (some (.link target))

section

variable {k l : Location} {dump name : Bytes} {v : Option Entry}

theorem Proper.eq_directory (proper : Proper k (k ++ [dump]) v) : v = some .directory := by
  generalize same : k ++ [dump] = l at proper
  cases proper with
  | directory => rfl
  | file | link => simp at same

theorem Proper.isFile (proper : Proper k (k ++ [dump] ++ [name]) v) (other : name ≠ linkEntry)
    (e : Entry) (there : v = some e) : ∃ content, e = .file content := by
  generalize same : k ++ [dump] ++ [name] = l at proper
  cases proper with
  | directory => simp at same
  | file _ _ isFile => exact isFile e there
  | link =>
      exact absurd (List.cons.inj (List.append_inj' same rfl).2).1 other

theorem Proper.isLink (proper : Proper k (k ++ [dump] ++ [linkEntry]) v) :
    ∃ target, v = some (.link target) := by
  generalize same : k ++ [dump] ++ [linkEntry] = l at proper
  cases proper with
  | directory => simp at same
  | file _ other =>
      exact absurd (List.cons.inj (List.append_inj' same rfl).2).1.symm other
  | link _ target => exact ⟨target, rfl⟩

/-- Links are put in the places of links only. -/
theorem Proper.name_of_link {target : Bytes}
    (proper : Proper k (l ++ [name]) (some (.link target))) : name = linkEntry := by
  generalize same : l ++ [name] = m at proper
  generalize linked : some (Entry.link target) = v at proper
  cases proper with
  | directory => cases linked
  | file _ _ isFile =>
      obtain ⟨content, file⟩ := isFile _ linked.symm
      cases file
  | link => exact (List.cons.inj (List.append_inj' same rfl).2).1

/-- What is written properly, or was proper and is written so, is proper afterwards. -/
theorem proper_after {ws : Writes} {held : Location → Option Entry}
    (proper : ∀ w ∈ ws, Proper k w.1 w.2) (h : (∃ v, (l, v) ∈ ws) ∨ Proper k l (held l)) :
    Proper k l (after ws held l) := by
  obtain written | ⟨untouched, kept⟩ := after_cases ws held l
  · exact proper _ written
  · rw [kept]
    exact h.resolve_left fun ⟨v, mem⟩ => untouched v mem

end

end LiveMigration.Transfer
