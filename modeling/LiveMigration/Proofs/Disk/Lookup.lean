import LiveMigration.Proofs.Disk.Tree

/-!
Paths that lead to a directory. One may go on from such a directory as if one had started
there, dots at the end of the path may be left out, and the directory is still found when
something is added to the tree.
-/

namespace LiveMigration

/-- Directories and links: what a path can lead through. -/
def Entry.LeadsOn : Entry → Prop
  | .directory | .link _ => True
  | .file _ | .special => False

namespace FileTree

/-- What one name of a path does, whatever comes behind it. -/
inductive Passes (t : FileTree) (here : Location) (name : Bytes) : Prop
  | on (next : Location)
      (h : ∀ last rest, advance t last here (name :: rest) = advance t last next rest)
  | long (h : ∀ last rest, advance t last here (name :: rest) = .failed .nameTooLong)
  | missing (h : ∀ last rest, advance t last here (name :: rest) =
      if rest.isEmpty then .done (.free (here ++ [name])) else .failed .noSuchEntry)
  | link (target : Bytes) (h : ∀ last rest, advance t last here (name :: rest) =
      if rest.isEmpty ∧ ¬ last then .done (.present (here ++ [name]) (.link target))
      else .link here target rest)
  | other (e : Entry) (ne : e ≠ .directory) (h : ∀ last rest, advance t last here (name :: rest) =
      if rest.isEmpty then .done (.present (here ++ [name]) e) else .failed .notDirectory)

theorem passes (t : FileTree) (here : Location) (name : Bytes) : Passes t here name := by
  by_cases dot : name = Path.dot
  · exact .on here fun last rest => by rw [advance, if_pos dot]
  by_cases dotDot : name = Path.dotDot
  · exact .on here.dropLast fun last rest => by rw [advance, if_neg dot, if_pos dotDot]
  by_cases long : maxName < name.length
  · exact .long fun last rest => by rw [advance, if_neg dot, if_neg dotDot, if_pos long]
  have opened (last : Bool) (rest : List Bytes) := advance.eq_2 t last here name rest
  simp only [if_neg dot, if_neg dotDot, if_neg long] at opened
  cases found : t.get? (here ++ [name]) with
  | none => exact .missing fun last rest => by rw [opened, found]
  | some e =>
      cases e with
      | directory => exact .on (here ++ [name]) fun last rest => by rw [opened, found]
      | link target => exact .link target fun last rest => by rw [opened, found]
      | file content => exact .other (.file content) nofun fun last rest => by rw [opened, found]
      | special => exact .other .special nofun fun last rest => by rw [opened, found]

variable {t t' x : FileTree} {here R k directory : Location} {xs ys rest dots : List Bytes}
  {last : Bool} {target : Bytes} {n : Nat}

/-- A name on the way to a directory leads further, and the others that are behind it do not
matter for this. -/
theorem passes_of_directory {name : Bytes}
    (h : advance t true here (name :: xs) = .done (.present R .directory)) :
    ∃ next, ∀ last rest, advance t last here (name :: rest) = advance t last next rest := by
  cases passes t here name with
  | on next step => exact ⟨next, step⟩
  | long step =>
      rw [step] at h
      cases h
  | missing step =>
      rw [step] at h
      split at h <;> cases h
  | link target step =>
      rw [step, if_neg (by simp)] at h
      cases h
  | other e ne step =>
      rw [step] at h
      split at h
      · cases h
        exact absurd rfl ne
      · cases h

/-- A name on the way to a link leads further, or it is that of the link. -/
theorem passes_of_link {name : Bytes}
    (h : advance t true here (name :: xs) = .link directory target rest) :
    (∃ next, ∀ last rest, advance t last here (name :: rest) = advance t last next rest) ∨
      directory = here ∧ rest = xs ∧ ∀ last rest, advance t last here (name :: rest) =
        if rest.isEmpty ∧ ¬ last then .done (.present (here ++ [name]) (.link target))
        else .link here target rest := by
  cases passes t here name with
  | on next step => exact .inl ⟨next, step⟩
  | long step =>
      rw [step] at h
      cases h
  | missing step =>
      rw [step] at h
      split at h <;> cases h
  | link target step =>
      rw [step, if_neg (by simp)] at h
      cases h
      exact .inr ⟨rfl, rfl, step⟩
  | other e _ step =>
      rw [step] at h
      split at h <;> cases h

/-! ## Going on -/

theorem advance_append (h : advance t true here xs = .done (.present R .directory)) :
    advance t last here (xs ++ ys) = advance t last R ys := by
  induction xs generalizing here with
  | nil =>
      cases h
      rfl
  | cons name xs ih =>
      obtain ⟨next, step⟩ := passes_of_directory h
      rw [step] at h
      rw [List.cons_append, step]
      exact ih h

theorem advance_append_link (h : advance t true here xs = .link directory target rest)
    (ne : ys ≠ []) :
    advance t last here (xs ++ ys) = .link directory target (rest ++ ys) := by
  induction xs generalizing here with
  | nil => cases h
  | cons name xs ih =>
      rw [List.cons_append]
      obtain ⟨next, step⟩ | ⟨rfl, rfl, step⟩ := passes_of_link h
      · rw [step] at h ⊢
        exact ih h
      · rw [step, if_neg (by simp [ne])]

/-- From what is neither a directory nor a link one does not go on. -/
theorem advance_append_stuck (notThere : ∀ R, advance t true here xs ≠ .done (.present R .directory))
    (noLink : ∀ directory target rest, advance t true here xs ≠ .link directory target rest)
    (ne : ys ≠ []) : ∃ e, advance t last here (xs ++ ys) = .failed e := by
  induction xs generalizing here with
  | nil => exact absurd rfl (notThere here)
  | cons name xs ih =>
      rw [List.cons_append]
      have more : ¬ (xs ++ ys).isEmpty = true := by simp [ne]
      cases passes t here name with
      | on next step =>
          simp only [step] at notThere noLink ⊢
          exact ih notThere noLink
      | long step => exact ⟨_, step _ _⟩
      | missing step => exact ⟨_, (step _ _).trans (if_neg more)⟩
      | link target step =>
          refine absurd ?_ (noLink here target xs)
          rw [step, if_neg (by simp)]
      | other e _ step => exact ⟨_, (step _ _).trans (if_neg more)⟩

/-- From a directory that a path leads to one goes on as from the start. -/
theorem follow_append (last : Bool) (h : follow t true n here xs = .ok (.present R .directory))
    (ne : ys ≠ []) : ∃ m, follow t last n here (xs ++ ys) = follow t last (m + 1) R ys := by
  induction n generalizing here xs with
  | zero => cases h
  | succ n ih =>
      unfold follow at h
      split at h
      · rename_i done
        cases h
        exact ⟨n, by rw [follow, follow, advance_append done]⟩
      · cases h
      · rename_i turned
        obtain ⟨m, same⟩ := ih h
        refine ⟨m, ?_⟩
        rw [follow, advance_append_link turned ne]
        dsimp only
        rw [← List.append_assoc]
        exact same

/-! ## Links at the end -/

theorem advance_entry (h : advance t true here xs = .done (.present R .directory)) :
    advance t false here xs = .done (.present R .directory) := by
  rw [← List.append_nil xs]
  exact advance_append h

theorem advance_entry_link (h : advance t true here xs = .link directory target rest) :
    advance t false here xs = .link directory target rest ∨
      ∃ k e, advance t false here xs = .done (.present k e) := by
  induction xs generalizing here with
  | nil => cases h
  | cons name xs ih =>
      obtain ⟨next, step⟩ | ⟨rfl, rfl, step⟩ := passes_of_link h
      · rw [step] at h ⊢
        exact ih h
      · rw [step]
        split
        · exact .inr ⟨_, _, rfl⟩
        · exact .inl rfl

/-- Where a path leads to a directory there is an entry, the directory or a link to it. -/
theorem follow_entry (h : follow t true n here xs = .ok (.present R .directory)) :
    ∃ k e, follow t false n here xs = .ok (.present k e) := by
  induction n generalizing here xs with
  | zero => cases h
  | succ n ih =>
      rw [follow] at h
      rw [follow]
      split at h
      · rename_i done
        cases h
        exact ⟨_, _, by rw [advance_entry done]⟩
      · cases h
      · rename_i turned
        obtain same | ⟨k, e, done⟩ := advance_entry_link turned
        · rw [same]
          exact ih h
        · exact ⟨k, e, by rw [done]⟩

/-! ## Dots at the end -/

theorem advance_dots (h : ∀ d ∈ dots, d = Path.dot) :
    advance t last here dots = .done (.present here .directory) := by
  induction dots with
  | nil => rfl
  | cons d dots ih =>
      rw [advance, if_pos (h d (List.mem_cons_self ..))]
      exact ih fun d hd => h d (List.mem_cons_of_mem _ hd)

theorem advance_of_dots (only : ∀ d ∈ dots, d = Path.dot)
    (h : advance t true here (xs ++ dots) = .done (.present R .directory)) :
    advance t true here xs = .done (.present R .directory) := by
  induction xs generalizing here with
  | nil =>
      rw [List.nil_append, advance_dots only] at h
      exact h
  | cons name xs ih =>
      rw [List.cons_append] at h
      obtain ⟨next, step⟩ := passes_of_directory h
      rw [step] at h ⊢
      exact ih h

theorem advance_link_of_dots (only : ∀ d ∈ dots, d = Path.dot)
    (h : advance t true here (xs ++ dots) = .link directory target rest) :
    ∃ front, rest = front ++ dots ∧ advance t true here xs = .link directory target front := by
  induction xs generalizing here with
  | nil =>
      rw [List.nil_append, advance_dots only] at h
      cases h
  | cons name xs ih =>
      rw [List.cons_append] at h
      obtain ⟨next, step⟩ | ⟨rfl, rfl, step⟩ := passes_of_link h
      · rw [step] at h ⊢
        exact ih h
      · exact ⟨xs, rfl, by rw [step, if_neg (by simp)]⟩

theorem follow_of_dots (only : ∀ d ∈ dots, d = Path.dot)
    (h : follow t true n here (xs ++ dots) = .ok (.present R .directory)) :
    follow t true n here xs = .ok (.present R .directory) := by
  induction n generalizing here xs with
  | zero => cases h
  | succ n ih =>
      unfold follow at h
      rw [follow]
      split at h
      · rename_i done
        cases h
        rw [advance_of_dots only done]
      · cases h
      · rename_i turned
        obtain ⟨front, rfl, short⟩ := advance_link_of_dots only turned
        rw [short]
        rw [← List.append_assoc] at h
        exact ih h

/-! ## Directories that may be lost -/

/-- The directories and links of one tree are in two others as well, except that there may be
nothing in their places in the last one. -/
def Spares (t t' x : FileTree) : Prop :=
  ∀ l e, e.LeadsOn → t.get? l = some e →
    t'.get? l = some e ∧ x.get? l = some e ∨ x.get? l = none

/-- One gets equally far in all three, or in the last one does not get to what lies behind. -/
theorem Spares.advance (spares : Spares t t' x) {turn : Turn}
    (h : t.advance true here xs = turn)
    (good : (∃ k, turn = .done (.present k .directory)) ∨
      ∃ directory target rest, turn = .link directory target rest) :
    t'.advance true here xs = turn ∧ x.advance true here xs = turn ∨
      ∀ last ys, ys ≠ [] → x.advance last here (xs ++ ys) = .failed .noSuchEntry := by
  induction xs generalizing here with
  | nil => exact .inl ⟨h, h⟩
  | cons name xs ih =>
      have through {next : Location}
          (first : ∀ last rest, t'.advance last here (name :: rest) = t'.advance last next rest)
          (second : ∀ last rest, x.advance last here (name :: rest) = x.advance last next rest)
          (h : t.advance true next xs = turn) :
          t'.advance true here (name :: xs) = turn ∧ x.advance true here (name :: xs) = turn ∨
            ∀ last ys, ys ≠ [] → x.advance last here (name :: xs ++ ys) = .failed .noSuchEntry :=
        (ih h).imp (fun same => ⟨(first _ _).trans same.1, (second _ _).trans same.2⟩)
          fun lost last ys ne => (second _ _).trans (lost last ys ne)
      rw [FileTree.advance] at h
      split at h
      · rename_i dot
        exact through (fun _ _ => by rw [FileTree.advance, if_pos dot])
          (fun _ _ => by rw [FileTree.advance, if_pos dot]) h
      rename_i dot
      split at h
      · rename_i dotDot
        exact through (fun _ _ => by rw [FileTree.advance, if_neg dot, if_pos dotDot])
          (fun _ _ => by rw [FileTree.advance, if_neg dot, if_pos dotDot]) h
      rename_i dotDot
      split at h
      · subst h
        obtain ⟨_, h⟩ | ⟨_, _, _, h⟩ := good <;> cases h
      rename_i short
      have opened (u : FileTree) (last : Bool) (rest : List Bytes) :=
        advance.eq_2 u last here name rest
      simp only [if_neg dot, if_neg dotDot, if_neg short] at opened
      dsimp only at h
      have lost (missing : x.get? (here ++ [name]) = none) (last : Bool) (ys : List Bytes)
          (ne : ys ≠ []) : x.advance last here (name :: xs ++ ys) = .failed .noSuchEntry := by
        rw [List.cons_append, opened, missing]
        exact if_neg (by simp [ne])
      cases found : t.get? (here ++ [name]) with
      | none =>
          rw [found] at h
          dsimp only at h
          split at h <;> subst h <;> obtain ⟨_, h⟩ | ⟨_, _, _, h⟩ := good <;> cases h
      | some e =>
          rw [found] at h
          cases e with
          | directory =>
              obtain ⟨first, second⟩ | missing := spares _ .directory trivial found
              · exact through (fun _ _ => by rw [opened, first])
                  (fun _ _ => by rw [opened, second]) h
              · exact .inr (lost missing)
          | link target =>
              obtain ⟨first, second⟩ | missing := spares _ (.link target) trivial found
              · refine .inl ⟨?_, ?_⟩
                · rw [opened, first]
                  exact h
                · rw [opened, second]
                  exact h
              · exact .inr (lost missing)
          | file | special =>
              dsimp only at h
              split at h <;> subst h <;> obtain ⟨_, h⟩ | ⟨_, _, _, h⟩ := good <;> cases h

theorem Spares.follow (spares : Spares t t' x)
    (h : t.follow true n here xs = .ok (.present k .directory)) :
    t'.follow true n here xs = .ok (.present k .directory) ∧
        x.follow true n here xs = .ok (.present k .directory) ∨
      ∀ last ys, ys ≠ [] → x.follow last n here (xs ++ ys) = .error .noSuchEntry := by
  induction n generalizing here xs with
  | zero => cases h
  | succ n ih =>
      simp only [FileTree.follow] at h ⊢
      split at h
      · rename_i done
        cases h
        obtain ⟨first, second⟩ | lost := spares.advance done (.inl ⟨_, rfl⟩)
        · exact .inl ⟨by rw [first], by rw [second]⟩
        · exact .inr fun last ys ne => by rw [lost last ys ne]
      · cases h
      · rename_i directory target rest turned
        obtain ⟨first, second⟩ | lost := spares.advance turned (.inr ⟨_, _, _, rfl⟩)
        · rw [first, second]
          refine (ih h).imp_right fun lost last ys ne => ?_
          rw [advance_append_link second ne]
          dsimp only
          rw [← List.append_assoc]
          exact lost last ys ne
        · exact .inr fun last ys ne => by rw [lost last ys ne]

/-! ## Directories that are still found -/

/-- All directories and links of one tree are in the other one. -/
def Keeps (t t' : FileTree) : Prop :=
  ∀ l e, e.LeadsOn → t.get? l = some e → t'.get? l = some e

theorem Keeps.follow (keeps : Keeps t t')
    (h : t.follow true n here xs = .ok (.present k .directory)) :
    t'.follow true n here xs = .ok (.present k .directory) := by
  have spares : Spares t t' t := fun l e leadsOn there => .inl ⟨keeps l e leadsOn there, there⟩
  refine ((spares.follow h).resolve_right fun lost => ?_).1
  -- A dot more does not lead astray.
  have dotted := lost true [Path.dot] (List.cons_ne_nil _ _)
  obtain ⟨m, same⟩ := follow_append true h (List.cons_ne_nil Path.dot [])
  rw [same, FileTree.follow, advance_dots (by simp)] at dotted
  cases dotted

/-- All that is in one tree is in the other one. -/
def Extends (t t' : FileTree) : Prop := ∀ l e, t.get? l = some e → t'.get? l = some e

theorem Extends.keeps (x : Extends t t') : Keeps t t' := fun l e _ => x l e

end FileTree

end LiveMigration
