import LiveMigration.Disk.Lookup
import Mathlib.Data.List.DropRight

/-!
Paths put together from names. A name joined to a path is its last name again, what is left
without it leads where the path led, and the names on the way are those of the path and the
new one.
-/

namespace LiveMigration

namespace Bytes

variable {sep : UInt8}

theorem splitOn_append (a b : Bytes) :
    splitOn sep (a ++ sep :: b) = splitOn sep a ++ splitOn sep b := by
  induction a with
  | nil => simp [splitOn]
  | cons x a ih =>
      rw [List.cons_append, splitOn, splitOn]
      split
      · rw [ih]
        rfl
      · rw [ih]
        cases h : splitOn sep a with
        | nil => exact absurd h (splitOn_ne_nil sep a)
        | cons piece pieces => rfl

theorem splitOn_of_not_mem {b : Bytes} (h : sep ∉ b) : splitOn sep b = [b] := by
  induction b with
  | nil => rfl
  | cons x b ih =>
      rw [List.mem_cons, not_or] at h
      rw [splitOn, if_neg (Ne.symm h.1), ih h.2]

theorem not_mem_of_mem_splitOn {b : Bytes} : ∀ piece ∈ splitOn sep b, sep ∉ piece := by
  induction b with
  | nil => simp [splitOn]
  | cons x b ih =>
      rw [splitOn]
      split
      · intro piece mem
        rcases List.mem_cons.1 mem with rfl | mem
        · exact List.not_mem_nil
        · exact ih piece mem
      · rename_i ne
        split
        · intro piece mem
          rw [List.mem_singleton.1 mem, List.mem_singleton]
          exact Ne.symm ne
        · rename_i first pieces h
          rw [h] at ih
          intro piece mem
          rcases List.mem_cons.1 mem with rfl | mem
          · rw [List.mem_cons, not_or]
            exact ⟨Ne.symm ne, ih first (List.mem_cons_self ..)⟩
          · exact ih piece (List.mem_cons_of_mem _ mem)

theorem joinWith_cons {p : Bytes} {ps : List Bytes} (h : ps ≠ []) :
    joinWith sep (p :: ps) = p ++ sep :: joinWith sep ps := by
  cases ps with
  | nil => exact absurd rfl h
  | cons q qs => rfl

theorem splitOn_joinWith {ps : List Bytes} (ne : ps ≠ []) (h : ∀ p ∈ ps, sep ∉ p) :
    splitOn sep (joinWith sep ps) = ps := by
  induction ps with
  | nil => exact absurd rfl ne
  | cons p ps ih =>
      have first := h p (List.mem_cons_self ..)
      cases ps with
      | nil => exact splitOn_of_not_mem first
      | cons q qs =>
          rw [joinWith_cons (List.cons_ne_nil q qs), splitOn_append, splitOn_of_not_mem first,
            ih (List.cons_ne_nil q qs) fun p hp => h p (List.mem_cons_of_mem _ hp)]
          rfl

theorem joinWith_append_begins (as bs : List Bytes) :
    joinWith sep as <+: joinWith sep (as ++ bs) := by
  induction as with
  | nil => exact List.nil_prefix
  | cons a as ih =>
      by_cases none : as = []
      · subst none
        cases bs with
        | nil => exact List.prefix_rfl
        | cons b bs => exact List.prefix_append a _
      · rw [List.cons_append, joinWith_cons none, joinWith_cons (by simp [none])]
        exact (List.prefix_append_right_inj a).2 ((List.cons_prefix_cons).2 ⟨rfl, ih⟩)

theorem head?_splitOn (b : Bytes) :
    (splitOn sep b).head? = some [] ↔ b = [] ∨ b.head? = some sep := by
  cases b with
  | nil => simp [splitOn]
  | cons x b =>
      rw [splitOn]
      split
      · rename_i same
        simp [same]
      · rename_i ne
        split <;> simp [ne]

end Bytes

namespace Path

open Bytes

/-- A name that stands for an entry of a directory. -/
structure Ordinary (name : Bytes) : Prop where
  nonempty : name ≠ []
  noSlash : slash ∉ name
  noZero : 0 ∉ name
  notDot : name ≠ dot
  notDotDot : name ≠ dotDot

def names (p : Path) : List Bytes := p.pieces.filter (!·.isEmpty)

/-- A path without a slash at its end. -/
def stem (p : Path) : Bytes :=
  if p.bytes.getLast? = some slash then p.bytes.dropLast else p.bytes

variable {p : Path} {name : Bytes}

theorem bytes_join (h : p.bytes ≠ []) (o : Ordinary name) :
    (p.join name).bytes = p.stem ++ slash :: name := by
  have relative : ¬ (name.head? = some slash ∨ p.bytes.isEmpty = true) := by
    rintro (head | empty)
    · obtain ⟨rest, rfl⟩ := List.head?_eq_some_iff.1 head
      exact o.noSlash (List.mem_cons_self ..)
    · exact h (List.isEmpty_iff.1 empty)
  unfold join stem
  rw [if_neg relative]
  split
  · rename_i last
    obtain ⟨front, same⟩ := List.getLast?_eq_some_iff.1 last
    rw [same, List.dropLast_concat, List.append_assoc]
    rfl
  · rfl

theorem names_eq_stem (p : Path) : p.names = (splitOn slash p.stem).filter (!·.isEmpty) := by
  unfold names pieces stem
  split
  · rename_i last
    obtain ⟨front, same⟩ := List.getLast?_eq_some_iff.1 last
    rw [same, List.dropLast_concat, splitOn_append, List.filter_append]
    simp [splitOn]
  · rfl

theorem pieces_join (h : p.bytes ≠ []) (o : Ordinary name) :
    (p.join name).pieces = splitOn slash p.stem ++ [name] := by
  unfold pieces
  rw [bytes_join h o, splitOn_append, splitOn_of_not_mem o.noSlash]

theorem names_join (h : p.bytes ≠ []) (o : Ordinary name) :
    (p.join name).names = p.names ++ [name] := by
  have full : (!name.isEmpty) = true := by simpa using o.nonempty
  rw [names_eq_stem p, names, pieces_join h o, List.filter_append]
  simp [full]

theorem getLast?_join (h : p.bytes ≠ []) (o : Ordinary name) :
    (p.join name).bytes.getLast? ≠ some slash := by
  rw [bytes_join h o]
  obtain ⟨front, last, rfl⟩ := (List.eq_nil_or_concat name).resolve_left o.nonempty
  rw [List.concat_eq_append, ← List.cons_append, ← List.append_assoc, List.getLast?_concat]
  intro same
  rw [Option.some.inj same, List.concat_eq_append] at o
  exact o.noSlash (by simp)

theorem names_slash (b : Bytes) : (⟨b ++ [slash]⟩ : Path).names = (⟨b⟩ : Path).names := by
  unfold names pieces
  rw [Bytes.splitOn_append, List.filter_append]
  simp [Bytes.splitOn]

theorem names_slashes (b : Bytes) (n : Nat) :
    (⟨b ++ List.replicate n slash⟩ : Path).names = (⟨b⟩ : Path).names := by
  induction n with
  | zero => rw [List.replicate_zero, List.append_nil]
  | succ n ih => rw [List.replicate_succ', ← List.append_assoc, names_slash, ih]

/-- The names of a path as they are followed. -/
theorem namesOf_eq (p : Path) :
    ∃ dots, (∀ d ∈ dots, d = dot) ∧ FileTree.namesOf p.bytes = p.names ++ dots := by
  unfold FileTree.namesOf
  split
  · exact ⟨[dot], by simp, rfl⟩
  · exact ⟨[], nofun, rfl⟩

theorem namesOf_join (h : p.bytes ≠ []) (o : Ordinary name) :
    FileTree.namesOf (p.join name).bytes = p.names ++ [name] := by
  unfold FileTree.namesOf
  rw [if_neg (getLast?_join h o), List.append_nil]
  exact names_join h o

theorem bytes_of_stem (p : Path) : p.bytes = p.stem ∨ p.bytes = p.stem ++ [slash] := by
  unfold stem
  split
  · rename_i last
    obtain ⟨front, same⟩ := List.getLast?_eq_some_iff.1 last
    rw [same, List.dropLast_concat]
    exact .inr rfl
  · exact .inl rfl

/-- Whether a path is absolute can be seen from the first of its pieces. -/
theorem isAbsolute_iff (h : p.bytes ≠ []) :
    p.isAbsolute = true ↔ (splitOn slash p.stem).head? = some [] := by
  unfold isAbsolute
  rw [head?_splitOn, decide_eq_true_eq]
  obtain same | same := bytes_of_stem p
  · rw [← same]
    exact ⟨.inr, fun h' => h'.resolve_left h⟩
  · rw [same]
    cases p.stem <;> simp

theorem isAbsolute_join (h : p.bytes ≠ []) (o : Ordinary name) :
    (p.join name).isAbsolute = p.isAbsolute := by
  unfold isAbsolute
  rw [bytes_join h o]
  obtain same | same := bytes_of_stem p
  · rw [same]
    cases hs : p.stem with
    | nil => exact absurd (same.trans hs) h
    | cons => rfl
  · rw [same]
    cases p.stem <;> rfl

theorem stem_join (h : p.bytes ≠ []) (o : Ordinary name) :
    (p.join name).stem = (p.join name).bytes := by
  unfold stem
  exact if_neg (getLast?_join h o)

theorem length_join (h : p.bytes ≠ []) (o : Ordinary name) :
    (p.join name).bytes.length = p.stem.length + 1 + name.length := by
  rw [bytes_join h o, List.length_append, List.length_cons]
  omega

theorem zero_mem_join (h : p.bytes ≠ []) (o : Ordinary name) (zero : 0 ∈ (p.join name).bytes) :
    0 ∈ p.bytes := by
  have mem : 0 ∈ p.stem := by
    rw [bytes_join h o, List.mem_append, List.mem_cons] at zero
    obtain zero | zero | zero := zero
    · exact zero
    · cases zero
    · exact absurd zero o.noZero
  obtain same | same := bytes_of_stem p
  · rw [same]
    exact mem
  · rw [same]
    exact List.mem_append_left _ mem

/-! ## Taking the last name off again -/

theorem trimPieces_concat {pieces : List Bytes} (ne : pieces ≠ []) (o : Ordinary name) :
    trimPieces (pieces ++ [name]) = pieces ++ [name] := by
  have kept : isFiller name = false := by
    simp [isFiller, o.nonempty, o.notDot]
  cases pieces with
  | nil => exact absurd rfl ne
  | cons first pieces =>
      rw [List.cons_append, trimPieces, List.reverse_append, List.reverse_singleton,
        List.singleton_append, List.dropWhile_cons_of_neg (by simp [kept]), List.reverse_cons,
        List.reverse_reverse]

theorem fileName?_join (h : p.bytes ≠ []) (o : Ordinary name) :
    (p.join name).fileName? = some name := by
  have last : (splitOn slash p.stem ++ [name]).getLast? = some name := List.getLast?_concat
  have named : ¬ (isFiller name = true ∨ name = dotDot) := by
    simp [isFiller, o.nonempty, o.notDot, o.notDotDot]
  rw [fileName?, pieces_join h o, trimPieces_concat (splitOn_ne_nil slash p.stem) o, last]
  exact if_neg named

/-- What is trimmed are empty names and dots. -/
theorem trimPieces_append (pieces : List Bytes) :
    ∃ fillers, (∀ f ∈ fillers, isFiller f = true) ∧ pieces = trimPieces pieces ++ fillers := by
  cases pieces with
  | nil => exact ⟨[], nofun, rfl⟩
  | cons first rest =>
      refine ⟨(rest.reverse.takeWhile isFiller).reverse, ?_, ?_⟩
      · intro f mem
        rw [List.mem_reverse] at mem
        exact List.all_eq_true.1 List.all_takeWhile f mem
      · rw [trimPieces, List.cons_append, ← List.reverse_append, List.takeWhile_append_dropWhile,
          List.reverse_reverse]

theorem filter_fillers {fillers : List Bytes} (h : ∀ f ∈ fillers, isFiller f = true) :
    ∀ d ∈ fillers.filter (!·.isEmpty), d = dot := by
  intro d mem
  obtain ⟨mem, full⟩ := List.mem_filter.1 mem
  have filler := h d mem
  unfold isFiller at filler
  simpa [Bool.eq_false_iff.2 (by simpa using full : ¬ d.isEmpty = true)] using filler

/-- What is left of a path without a name that was joined to it is, but for dots, the path. -/
structure Shortened (p q : Path) : Prop where
  nonempty : q.bytes ≠ []
  isAbsolute : q.isAbsolute = p.isAbsolute
  names : ∃ dots, (∀ d ∈ dots, d = dot) ∧ p.names = q.names ++ dots
  stem : q.stem.length ≤ p.stem.length
  bytes : ∀ x ∈ q.bytes, x ∈ p.bytes

theorem stem_begins (p : Path) : p.stem <+: p.bytes := by
  obtain same | same := bytes_of_stem p
  · exact ⟨[], (List.append_nil _).trans same.symm⟩
  · exact ⟨[slash], same.symm⟩

theorem shortened_root {fillers : List Bytes} (h : p.bytes ≠ [])
    (only : ∀ f ∈ fillers, isFiller f = true) (cut : splitOn slash p.stem = [[]] ++ fillers) :
    Shortened p ⟨[slash]⟩ := by
  have absolute : p.isAbsolute = true := (isAbsolute_iff h).2 (by rw [cut]; rfl)
  have first : slash ∈ p.bytes := by
    unfold isAbsolute at absolute
    exact List.mem_of_mem_head? (by simpa using absolute)
  refine ⟨List.cons_ne_nil _ _, absolute.symm, ⟨_, filter_fillers only, ?_⟩, ?_, ?_⟩
  · rw [names_eq_stem, cut]
    rfl
  · exact Nat.zero_le _
  · intro x mem
    rw [List.mem_singleton.1 mem]
    exact first

theorem shortened_joinWith {kept fillers : List Bytes} (h : p.bytes ≠ []) (ne : kept ≠ [])
    (top : kept ≠ [[]]) (only : ∀ f ∈ fillers, isFiller f = true)
    (cut : splitOn slash p.stem = kept ++ fillers) : Shortened p ⟨joinWith slash kept⟩ := by
  have clean : ∀ piece ∈ kept, slash ∉ piece := by
    intro piece mem
    exact not_mem_of_mem_splitOn piece (cut ▸ List.mem_append_left _ mem)
  have whole : splitOn slash (joinWith slash kept) = kept := splitOn_joinWith ne clean
  have parts : joinWith slash (kept ++ fillers) = p.stem := by
    rw [← cut, joinWith_splitOn]
  have front : joinWith slash kept <+: p.stem := parts ▸ joinWith_append_begins kept fillers
  have full : joinWith slash kept ≠ [] := by
    intro none
    rw [none] at whole
    exact top whole.symm
  refine ⟨full, ?_, ⟨_, filter_fillers only, ?_⟩,
    Nat.le_trans (stem_begins ⟨joinWith slash kept⟩).length_le front.length_le,
    fun x mem => (front.trans p.stem_begins).subset mem⟩
  · have heads : (splitOn slash p.stem).head? = kept.head? := by
      rw [cut, List.head?_append_of_ne_nil _ ne]
    rw [Bool.eq_iff_iff, isAbsolute_iff h, heads]
    unfold isAbsolute
    rw [decide_eq_true_eq, ← whole, head?_splitOn, whole]
    exact ⟨.inr, fun absolute => absolute.resolve_left full⟩
  · rw [names_eq_stem p, cut, List.filter_append, names, pieces, whole]

/-- The path without its last piece. -/
theorem parent?_of_pieces {q : Path} {pieces : List Bytes} (ne : pieces ≠ [])
    (cut : trimPieces q.pieces = pieces ++ [name]) :
    q.parent? = if trimPieces pieces = [[]] then some ⟨[slash]⟩
      else some ⟨joinWith slash (trimPieces pieces)⟩ := by
  obtain ⟨first, rest, rfl⟩ := List.exists_cons_of_ne_nil ne
  have front : (first :: rest ++ [name]).dropLast = first :: rest := List.dropLast_concat
  rw [parent?, cut]
  split
  · rename_i none
    cases none
  · rename_i only
    simp at only
  · rw [front]
    split
    · rename_i top
      rw [if_pos top]
    · rename_i other
      rw [if_neg other]

theorem parent?_join (h : p.bytes ≠ []) (o : Ordinary name) :
    ∃ q, (p.join name).parent? = some q ∧ Shortened p q := by
  obtain ⟨fillers, only, cut⟩ := trimPieces_append (splitOn slash p.stem)
  have ne := splitOn_ne_nil slash p.stem
  have kept : trimPieces (splitOn slash p.stem) ≠ [] := by
    cases hs : splitOn slash p.stem with
    | nil => exact absurd hs ne
    | cons first rest => exact List.cons_ne_nil _ _
  have pieces : trimPieces (p.join name).pieces = splitOn slash p.stem ++ [name] := by
    rw [pieces_join h o, trimPieces_concat ne o]
  rw [parent?_of_pieces ne pieces]
  split
  · rename_i top
    exact ⟨_, rfl, shortened_root h only (top ▸ cut)⟩
  · rename_i other
    exact ⟨_, rfl, shortened_joinWith h kept other only cut⟩

/-! ## Names beside the last one -/

variable {root : Path}

theorem namesOf_beside (p : Path) (o : Ordinary name) :
    FileTree.namesOf (p.join name).bytes = p.names ++ [name] := by
  by_cases empty : p.bytes = []
  · have joined : (p.join name).bytes = name := by
      rw [join, if_pos (.inr (List.isEmpty_iff.2 empty))]
    have last : name.getLast? ≠ some slash := fun last => o.noSlash (List.mem_of_getLast? last)
    rw [joined, FileTree.namesOf, if_neg last, splitOn_of_not_mem o.noSlash, names, pieces, empty]
    simp [splitOn, o.nonempty]
  · exact namesOf_join empty o

theorem isAbsolute_beside (p : Path) (o : Ordinary name) :
    (p.join name).isAbsolute = p.isAbsolute := by
  by_cases empty : p.bytes = []
  · have joined : (p.join name).bytes = name := by
      rw [join, if_pos (.inr (List.isEmpty_iff.2 empty))]
    have first : name.head? ≠ some slash := fun first => o.noSlash (List.mem_of_head? first)
    rw [isAbsolute, isAbsolute, joined, empty]
    simp [first]
  · exact isAbsolute_join empty o

theorem bytes_beside_ne_nil (p : Path) (o : Ordinary name) : (p.join name).bytes ≠ [] := by
  by_cases empty : p.bytes = []
  · rw [join, if_pos (.inr (List.isEmpty_iff.2 empty))]
    exact o.nonempty
  · rw [bytes_join empty o]
    simp

theorem trimPieces_trimPieces (pieces : List Bytes) :
    trimPieces (trimPieces pieces) = trimPieces pieces := by
  cases pieces with
  | nil => rfl
  | cons first rest =>
      simp only [trimPieces, List.reverse_reverse, List.dropWhile_idempotent]

theorem trimPieces_concat_filler {pieces : List Bytes} (ne : pieces ≠ [])
    (filler : isFiller name = true) : trimPieces (pieces ++ [name]) = trimPieces pieces := by
  cases pieces with
  | nil => exact absurd rfl ne
  | cons first rest =>
      rw [List.cons_append, trimPieces, trimPieces, List.reverse_append, List.reverse_singleton,
        List.singleton_append, List.dropWhile_cons_of_pos filler]

theorem length_trimPieces_le (pieces : List Bytes) :
    (trimPieces pieces).length ≤ pieces.length := by
  obtain ⟨fillers, -, cut⟩ := trimPieces_append pieces
  rw [congrArg List.length cut, List.length_append]
  exact Nat.le_add_right ..

/-- What a path of which the last name was taken off looks like. -/
inductive Parting : Path → Prop
  | here : Parting ⟨[]⟩
  | top : Parting ⟨[slash]⟩
  | under {kept : List Bytes} (ne : kept ≠ []) (notTop : kept ≠ [[]])
      (trimmed : trimPieces kept = kept) (clean : ∀ piece ∈ kept, slash ∉ piece) :
      Parting ⟨joinWith slash kept⟩

theorem stem_joinWith {kept : List Bytes} (ne : kept ≠ []) (trimmed : trimPieces kept = kept)
    (clean : ∀ piece ∈ kept, slash ∉ piece) :
    (⟨joinWith slash kept⟩ : Path).stem = joinWith slash kept := by
  refine if_neg fun last => ?_
  obtain ⟨front, same⟩ := List.getLast?_eq_some_iff.1 last
  have cut : kept = splitOn slash front ++ [[]] := by
    rw [← splitOn_joinWith ne clean, show joinWith slash kept = front ++ [slash] from same,
      splitOn_append]
    rfl
  have shorter := length_trimPieces_le (splitOn slash front)
  have filler : isFiller [] = true := rfl
  rw [← trimPieces_concat_filler (splitOn_ne_nil slash front) filler, ← cut, trimmed, cut,
    List.length_append] at shorter
  exact Nat.not_succ_le_self _ shorter

theorem length_join_le (p : Path) (name : Bytes) :
    (p.join name).bytes.length ≤ p.bytes.length + 1 + name.length := by
  unfold join
  split
  · exact Nat.le_add_left ..
  · split <;> simp only [List.length_append, List.length_cons] <;> omega

/-- The last name of a path can be taken off. -/
theorem parting_of_fileName? (named : p.fileName? = some name) :
    ∃ root, p.parent? = some root ∧ Parting root ∧ root.bytes.length ≤ p.bytes.length := by
  unfold fileName? at named
  split at named
  · rename_i piece last
    obtain ⟨front, cut⟩ := List.getLast?_eq_some_iff.1 last
    split at named
    · cases named
    rename_i plain
    obtain ⟨rest, whole⟩ : ∃ rest, splitOn slash p.bytes = trimPieces front ++ rest := by
      obtain ⟨fillers, -, outer⟩ := trimPieces_append p.pieces
      obtain ⟨fillers', -, inner⟩ := trimPieces_append front
      refine ⟨fillers' ++ [piece] ++ fillers, ?_⟩
      rw [← List.append_assoc, ← List.append_assoc, ← inner, ← cut]
      exact outer
    have clean : ∀ piece ∈ trimPieces front, slash ∉ piece := fun piece mem =>
      not_mem_of_mem_splitOn piece (whole ▸ List.mem_append_left _ mem)
    have begins : joinWith slash (trimPieces front) <+: p.bytes := by
      rw [← joinWith_splitOn slash p.bytes, whole]
      exact joinWith_append_begins (trimPieces front) rest
    by_cases none : front = []
    · rw [none, List.nil_append] at cut
      have full : ¬ piece.isEmpty = true := fun empty => plain (.inl (by simp [isFiller, empty]))
      refine ⟨⟨[]⟩, ?_, .here, Nat.zero_le _⟩
      simp only [parent?, cut]
      exact if_neg full
    · rw [parent?_of_pieces none cut]
      by_cases top : trimPieces front = [[]]
      · refine ⟨_, if_pos top, .top, List.length_pos_iff.2 fun empty => ?_⟩
        rw [pieces, empty] at cut
        obtain ⟨empty, -⟩ | ⟨-, absent⟩ := List.append_eq_singleton_iff.1 cut.symm
        · exact none empty
        · cases absent
      · have kept : trimPieces front ≠ [] := by
          cases front with
          | nil => exact absurd rfl none
          | cons first rest => exact List.cons_ne_nil _ _
        exact ⟨_, if_neg top, .under kept top (trimPieces_trimPieces front) clean,
          begins.length_le⟩
  · cases named

/-- Another name beside the one that was taken off can be taken off too. -/
theorem Parting.parent?_join (parting : Parting root) (o : Ordinary name) :
    (root.join name).parent? = some root := by
  cases parting with
  | here =>
      have full : ¬ name.isEmpty = true := fun empty => o.nonempty (List.isEmpty_iff.1 empty)
      have cut : trimPieces ((⟨[]⟩ : Path).join name).pieces = [name] := by
        rw [join, if_pos (.inr rfl), pieces, splitOn_of_not_mem o.noSlash]
        rfl
      simp only [parent?, cut]
      exact if_neg full
  | top =>
      have cut := pieces_join (p := ⟨[slash]⟩) (List.cons_ne_nil _ _) o
      have kept := trimPieces_concat (splitOn_ne_nil slash (⟨[slash]⟩ : Path).stem) o
      rw [parent?_of_pieces (splitOn_ne_nil _ _) ((congrArg trimPieces cut).trans kept)]
      rfl
  | @under kept ne notTop trimmed clean =>
      have split := splitOn_joinWith ne clean
      have full : (⟨joinWith slash kept⟩ : Path).bytes ≠ [] := by
        intro none
        rw [show joinWith slash kept = [] from none] at split
        exact notTop split.symm
      have cut := pieces_join full o
      rw [stem_joinWith ne trimmed clean, split] at cut
      rw [parent?_of_pieces ne ((congrArg trimPieces cut).trans (trimPieces_concat ne o)),
        trimmed, if_neg notTop]

end Path

end LiveMigration
