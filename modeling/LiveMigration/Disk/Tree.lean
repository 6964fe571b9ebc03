import LiveMigration.Path

/-!
File trees. A tree assigns an entry to every location that exists; a location is the list of
names that lead to it from the top, without symbolic links, and the top is always a
directory. Listing order is the order of creation.
-/

namespace LiveMigration

inductive Entry
  | directory
  | file (content : Bytes)
  | link (target : Bytes)
  | special
  deriving DecidableEq, Repr

abbrev Location := List Bytes

structure FileTree where
  entries : List (Location × Entry)
  deriving DecidableEq, Repr

namespace FileTree

def empty : FileTree := ⟨[]⟩

def get? (t : FileTree) : Location → Option Entry
  | [] => some .directory
  | l => t.entries.lookup l

/-- Replaces what is at a location, or adds it. -/
def putIn (l : Location) (e : Entry) : List (Location × Entry) → List (Location × Entry)
  | [] => [(l, e)]
  | (k, old) :: rest => if k = l then (k, e) :: rest else (k, old) :: putIn l e rest

def put (t : FileTree) (l : Location) (e : Entry) : FileTree := ⟨putIn l e t.entries⟩

def erase (t : FileTree) (l : Location) : FileTree := ⟨t.entries.filter (·.1 ≠ l)⟩

/-- The name and entry of a pair that stands directly inside a location. -/
def childOf (l : Location) (pair : Location × Entry) : Option (Bytes × Entry) :=
  match pair.1.getLast? with
  | some name => if pair.1.dropLast = l then some (name, pair.2) else none
  | none => none

def children (t : FileTree) (l : Location) : List (Bytes × Entry) :=
  t.entries.filterMap (childOf l)

/-- Locations strictly below another one, what is nested deepest last. -/
def below (t : FileTree) (l : Location) : List (Location × Entry) :=
  t.entries.filter fun pair => l.isPrefixOf pair.1 && pair.1.length != l.length

theorem lookup_putIn (l k : Location) (e : Entry) (ps : List (Location × Entry)) :
    (putIn l e ps).lookup k = if k = l then some e else ps.lookup k := by
  induction ps with
  | nil =>
    by_cases h : k = l
    · simp [putIn, h]
    · have hb : (k == l) = false := by simpa using h
      simp [putIn, List.lookup_cons, h, hb]
  | cons p rest ih =>
    obtain ⟨m, old⟩ := p
    by_cases hm : m = l
    · by_cases h : k = l
      · simp [putIn, h, hm]
      · have hb : (k == l) = false := by simpa using h
        simp [putIn, List.lookup_cons, h, hm, hb]
    · by_cases h : k = l
      · subst h
        have hb : (k == m) = false := by simpa using Ne.symm hm
        simp [putIn, hm, List.lookup_cons, ih, hb]
      · simp [putIn, hm, List.lookup_cons, ih, h]

theorem get?_put (t : FileTree) (l k : Location) (e : Entry) (h : l ≠ []) :
    (t.put l e).get? k = if k = l then some e else t.get? k := by
  cases k with
  | nil => simp [get?, Ne.symm h]
  | cons a k => simp [get?, put, lookup_putIn]

theorem lookup_filter_ne (l k : Location) (ps : List (Location × Entry)) :
    (ps.filter (·.1 ≠ l)).lookup k = if k = l then none else ps.lookup k := by
  induction ps with
  | nil => simp
  | cons p rest ih =>
    obtain ⟨m, e⟩ := p
    by_cases hm : m = l
    · subst hm
      by_cases h : k = m
      · subst h
        simpa using ih
      · have : (k == m) = false := by simpa using h
        simp [List.lookup_cons, this, h] at ih ⊢
        exact ih
    · by_cases h : k = l
      · subst h
        have : (k == m) = false := by simpa using Ne.symm hm
        simp [List.lookup_cons, this, hm] at ih ⊢
        exact ih
      · simp [List.lookup_cons, hm, h] at ih ⊢
        rw [ih]

theorem get?_erase (t : FileTree) (l k : Location) (h : l ≠ []) :
    (t.erase l).get? k = if k = l then none else t.get? k := by
  cases k with
  | nil => simp [get?, Ne.symm h]
  | cons a k => simp only [get?, erase, lookup_filter_ne]

end FileTree

end LiveMigration
