import LiveMigration.Proofs.Disk.Operations
import LiveMigration.Proofs.Transfer.Frame
import LiveMigration.Proofs.Transfer.Receipt

/-!
What a received file or link does to the disk, whatever comes of it. All of it happens in the
directory of one dump; nothing there is a link but the one to the parent.
-/

namespace LiveMigration.Transfer

open Lineage

/-- A disk that differs from another one only in one directory, with what stands at the place
of this directory and what at the place of its link; no other link is in it. -/
structure Within (d₀ d : Disk) (l : Location) (place link : Option Entry) : Prop where
  cwd : d.cwd = d₀.cwd
  outside : d.tree.outside l = d₀.tree.outside l
  place : d.tree.get? l = place
  link : d.tree.get? (l ++ [linkEntry]) = link
  plain : ∀ name target, d.tree.get? (l ++ [name]) = some (.link target) → name = linkEntry

namespace Within

variable {d₀ d : Disk} {l : Location} {place link : Option Entry} {name : Bytes} {e : Entry}

theorem ne_nil (l : Location) (name : Bytes) : l ++ [name] ≠ [] := by simp

theorem self_ne (l : Location) (name : Bytes) : l ≠ l ++ [name] := by
  intro same
  have := congrArg List.length same
  rw [List.length_append, List.length_singleton] at this
  omega

theorem enter (w : Within d₀ d l place link) (ne : l ≠ []) :
    Within d₀ (d.change (.put l .directory)) l (some .directory) link := by
  have got (k : Location) : (d.tree.put l .directory).get? k =
      if k = l then some .directory else d.tree.get? k := d.tree.get?_put l k _ ne
  refine ⟨w.cwd, ?_, ?_, ?_, ?_⟩
  · exact (FileTree.outside_put _ List.prefix_rfl).trans w.outside
  · exact (got l).trans (if_pos rfl)
  · exact (got _).trans ((if_neg (self_ne l _).symm).trans w.link)
  · intro name target found
    refine w.plain name target ?_
    rw [← found]
    exact ((got _).trans (if_neg (self_ne l name).symm)).symm

/-- A change of one entry of the directory. -/
theorem set (w : Within d₀ d l place link) (c : Change) {new : Option Entry}
    (outside : (d.tree.apply c).outside l = d.tree.outside l)
    (got : ∀ k, (d.tree.apply c).get? k = if k = l ++ [name] then new else d.tree.get? k)
    (plain : ∀ target, new = some (.link target) → name = linkEntry) :
    Within d₀ (d.change c) l place (if name = linkEntry then new else link) := by
  refine ⟨w.cwd, outside.trans w.outside, ?_, ?_, ?_⟩
  · exact (got l).trans ((if_neg (self_ne l name)).trans w.place)
  · refine (got _).trans ?_
    by_cases same : name = linkEntry
    · rw [if_pos same, if_pos (by rw [same])]
    · rw [if_neg same, if_neg (by simpa using Ne.symm same)]
      exact w.link
  · intro name' target found
    have found := (got _).symm.trans found
    split at found
    · rename_i same
      obtain rfl : name' = name := by simpa using same
      exact plain target found
    · exact w.plain name' target found

theorem put (w : Within d₀ d l place link) (other : name ≠ linkEntry)
    (noLink : ∀ target, e ≠ .link target) :
    Within d₀ (d.change (.put (l ++ [name]) e)) l place link := by
  have within := w.set (.put (l ++ [name]) e) (FileTree.outside_put e (List.prefix_append l [name]))
    (fun k => d.tree.get?_put _ k e (ne_nil l name))
    (fun target same => absurd (Option.some.inj same) (noLink target))
  rwa [if_neg other] at within

theorem erase (w : Within d₀ d l place link) (other : name ≠ linkEntry) :
    Within d₀ (d.change (.erase (l ++ [name]))) l place link := by
  have within := w.set (.erase (l ++ [name])) (FileTree.outside_erase (List.prefix_append l [name]))
    (fun k => d.tree.get?_erase _ k (ne_nil l name)) nofun
  rwa [if_neg other] at within

theorem putLink (w : Within d₀ d l place link) (target : Bytes) :
    Within d₀ (d.change (.put (l ++ [linkEntry]) (.link target))) l place
      (some (.link target)) := by
  have within := w.set (.put (l ++ [linkEntry]) (.link target))
    (FileTree.outside_put _ (List.prefix_append l [linkEntry]))
    (fun k => d.tree.get?_put _ k (.link target) (ne_nil l linkEntry)) (fun _ _ => rfl)
  rwa [if_pos rfl] at within

theorem eraseLink (w : Within d₀ d l place link) :
    Within d₀ (d.change (.erase (l ++ [linkEntry]))) l place none := by
  have within := w.set (.erase (l ++ [linkEntry]))
    (FileTree.outside_erase (List.prefix_append l [linkEntry]))
    (fun k => d.tree.get?_erase _ k (ne_nil l linkEntry)) (fun _ _ => rfl)
  rwa [if_pos rfl] at within

/-! ## Steps -/

variable {root : Path} {k : Location} {dump : Dump} {s s' : Intake}

theorem leadsRoot (w : Within d₀ d (k ++ [dump.entryName]) place link)
    (roots : d₀.tree.RootsBeside d₀.cwd root k dump.entryName) : d.Leads root k := by
  have leads : d.tree.Leads d₀.cwd root k := roots d.tree w.outside
  unfold Disk.Leads
  rw [w.cwd]
  exact leads

theorem leads (w : Within d₀ d (k ++ [dump.entryName]) (some .directory) link)
    (roots : d₀.tree.RootsBeside d₀.cwd root k dump.entryName) :
    d.Leads (dump.pathIn root) (k ++ [dump.entryName]) :=
  (w.leadsRoot roots).enter dump.ordinary_entryName
    (Nat.le_trans dump.length_entryName (by decide)) w.place

/-- The directory is there afterwards, or nothing has changed. -/
theorem makeDirectory {r : Except TransferError Unit}
    (w : Within d₀ s.disk (k ++ [dump.entryName]) place link)
    (roots : d₀.tree.RootsBeside d₀.cwd root k dump.entryName)
    (unlinked : ∀ target, place ≠ some (.link target))
    (h : Intake.makeDirectory (dump.pathIn root) s = (r, s')) :
    s'.stream = s.stream ∧
      (s'.disk = s.disk ∧ r ≠ .ok () ∨
        Within d₀ s'.disk (k ++ [dump.entryName]) (some .directory) link ∧
          ∀ l, s'.disk.tree.get? l =
            if l = k ++ [dump.entryName] then some .directory else s.disk.tree.get? l) := by
  obtain ⟨made, created, ok_iff, stream⟩ := createDirectories_of_makeDirectory h
  refine ⟨stream, ?_⟩
  have plain := fun target linked => unlinked target (w.place.symm.trans linked)
  obtain ⟨_, same⟩ | ⟨same, there⟩ := Disk.createDirectories_cases (w.leadsRoot roots)
    dump.ordinary_entryName plain created
  · rw [same]
    exact .inr ⟨w.enter (ne_nil k _), fun l => s.disk.tree.get?_put _ l _ (ne_nil k _)⟩
  by_cases ok : r = .ok ()
  · have there := there (ok_iff.1 ok)
    obtain rfl := w.place.symm.trans there
    rw [same]
    refine .inr ⟨w, fun l => ?_⟩
    by_cases here : l = k ++ [dump.entryName]
    · rw [if_pos here, here]
      exact there
    · rw [if_neg here]
  · exact .inl ⟨same, ok⟩

theorem makeDirectory_ok (w : Within d₀ s.disk (k ++ [dump.entryName]) place link)
    (roots : d₀.tree.RootsBeside d₀.cwd root k dump.entryName)
    (unlinked : ∀ target, place ≠ some (.link target))
    (h : Intake.makeDirectory (dump.pathIn root) s = (.ok (), s')) :
    s'.stream = s.stream ∧ Within d₀ s'.disk (k ++ [dump.entryName]) (some .directory) link ∧
      ∀ l, s'.disk.tree.get? l =
        if l = k ++ [dump.entryName] then some .directory else s.disk.tree.get? l :=
  (w.makeDirectory roots unlinked h).imp_right fun made => made.resolve_left fun failed =>
    failed.2 rfl

theorem append (w : Within d₀ d l place link) (other : name ≠ linkEntry) (bytes : Bytes) :
    Within d₀ (d.append (l ++ [name]) bytes) l place link := by
  unfold Disk.append
  split
  · exact w.put other nofun
  · exact w

theorem takeContent {remaining : Nat} {register : UInt32} {arrived : Intake.Arrived}
    (w : Within d₀ s.disk l place link) (other : name ≠ linkEntry)
    (h : Intake.takeContent (l ++ [name]) remaining register s = (arrived, s')) :
    Within d₀ s'.disk l place link := by
  fun_induction Intake.takeContent (l ++ [name]) remaining register s with
  | case1 | case2 =>
      cases h
      exact w
  | case3 remaining register s positive b bytes stream read ih => exact ih (w.append other _) h

theorem discard {name : Bytes} (w : Within d₀ s.disk (k ++ [dump.entryName]) (some .directory) link)
    (roots : d₀.tree.RootsBeside d₀.cwd root k dump.entryName) (o : Path.Ordinary name)
    (other : name ≠ linkEntry) :
    Within d₀ (s.discard ((dump.pathIn root).join name)).disk (k ++ [dump.entryName])
      (some .directory) link := by
  unfold Intake.discard
  cases removed : s.disk.removeFile ((dump.pathIn root).join name) with
  | error => exact w
  | ok disk =>
      obtain rfl := Disk.removeFile_cases (w.leads roots) o removed
      exact w.erase other

theorem receiveFile {name : String} {size : UInt64} {expected : UInt32}
    {r : Except TransferError Unit}
    (w : Within d₀ s.disk (k ++ [dump.entryName]) place link)
    (roots : d₀.tree.RootsBeside d₀.cwd root k dump.entryName)
    (unlinked : ∀ target, place ≠ some (.link target))
    (plainName : Intake.isPlainName name = true)
    (h : Intake.receiveFile (dump.pathIn root) name size expected s = (r, s')) :
    s'.disk = s.disk ∧ r ≠ .ok () ∨
      Within d₀ s'.disk (k ++ [dump.entryName]) (some .directory) link := by
  obtain ⟨o, other⟩ := ordinary_of_isPlainName plainName
  obtain ⟨o', other'⟩ := ordinary_temporaryName o
  have written {opened s' : Intake} {l : Location} {disk : Disk} {arrived : Intake.Arrived}
      (made : Intake.makeDirectory (dump.pathIn root) s = (.ok (), opened))
      (created : opened.disk.createFile
        ((dump.pathIn root).joinText (Intake.temporaryName name)) = .ok (l, disk))
      (taken : Intake.takeContent l size.toNat Crc32.start ⟨disk, opened.stream⟩ = (arrived, s')) :
      Within d₀ s'.disk (k ++ [dump.entryName]) (some .directory) link := by
    obtain ⟨_, w, _⟩ := w.makeDirectory_ok roots unlinked made
    obtain ⟨rfl, rfl⟩ := Disk.createFile_cases (w.leads roots) o'
      (fun target found => other' (w.plain _ target found)) created
    have w := w.put (e := .file []) other' nofun
    exact Within.takeContent (s := ⟨_, opened.stream⟩) w other' taken
  cases fileReceipt h with
  | noDirectory made =>
      exact (w.makeDirectory roots unlinked made).2.imp (fun same => ⟨same.1, nofun⟩) And.left
  | noFile made => exact .inr (w.makeDirectory_ok roots unlinked made).2.1
  | discarded made created taken =>
      exact .inr ((written made created taken).discard roots o' other')
  | unnamed made created taken => exact .inr (written made created taken)
  | named made created taken renamed =>
      have w := written made created taken
      obtain ⟨e, found, ⟨_, rfl⟩ | rfl⟩ := Disk.renameFile_cases (w.leads roots) o' o renamed
      · exact .inr w
      · refine .inr ((w.put other ?_).erase other')
        rintro target rfl
        exact other' (w.plain _ target found)

/-- What arrives whole is taken off the stream and written behind what the file holds. -/
theorem takeContent_whole {m : Location} {remaining : Nat} {register actual : UInt32}
    {written : Bytes} (ne : m ≠ []) (there : s.disk.tree.get? m = some (.file written))
    (h : Intake.takeContent m remaining register s = (.whole actual, s')) :
    ∃ content, content.length = remaining ∧
      s.stream.flatten = content ++ s'.stream.flatten ∧ ∀ l, s'.disk.tree.get? l =
        if l = m then some (.file (written ++ content)) else s.disk.tree.get? l := by
  obtain ⟨outcome, rest⟩ := takeContent_stream m remaining register s
  obtain ⟨_, contents⟩ := takeContent_disk remaining register ne there
  rw [h] at outcome rest contents
  have enough : remaining ≤ s.stream.flatten.length := by
    unfold arrivedOf at outcome
    split at outcome
    · assumption
    · cases outcome
  refine ⟨s.stream.flatten.take remaining, List.length_take_of_le enough, ?_, contents⟩
  dsimp only at rest
  rw [rest, List.take_append_drop]

/-- What a file that was received has changed, and what it has taken off the stream. -/
theorem receiveFile_ok {name : String} {size : UInt64} {expected : UInt32}
    (w : Within d₀ s.disk (k ++ [dump.entryName]) place link)
    (roots : d₀.tree.RootsBeside d₀.cwd root k dump.entryName)
    (unlinked : ∀ target, place ≠ some (.link target))
    (plainName : Intake.isPlainName name = true)
    (h : Intake.receiveFile (dump.pathIn root) name size expected s = (.ok (), s')) :
    ∃ content, content.length = size.toNat ∧
      s.stream.flatten = content ++ s'.stream.flatten ∧ ∀ l, s'.disk.tree.get? l =
        if l = k ++ [dump.entryName] ++ [Bytes.ofText (Intake.temporaryName name)] then none
        else if l = k ++ [dump.entryName] ++ [Bytes.ofText name] then some (.file content)
        else if l = k ++ [dump.entryName] then some .directory
        else s.disk.tree.get? l := by
  obtain ⟨o, other⟩ := ordinary_of_isPlainName plainName
  obtain ⟨o', other'⟩ := ordinary_temporaryName o
  have ne := ne_nil (k ++ [dump.entryName]) (Bytes.ofText (Intake.temporaryName name))
  cases fileReceipt h with
  | @named opened s' l disk final register made created taken renamed =>
      obtain ⟨stream, w, entered⟩ := w.makeDirectory_ok roots unlinked made
      obtain ⟨rfl, rfl⟩ := Disk.createFile_cases (w.leads roots) o'
        (fun target found => other' (w.plain _ target found)) created
      have w := w.put (e := .file []) other' nofun
      have put (l : Location) := opened.disk.tree.get?_put
        (k ++ [dump.entryName] ++ [Bytes.ofText (Intake.temporaryName name)]) l (.file []) ne
      obtain ⟨content, length, flat, contents⟩ := takeContent_whole
        (s := ⟨opened.disk.change (.put _ _), opened.stream⟩) ne
        ((put _).trans (if_pos rfl)) taken
      have w := Within.takeContent (s := ⟨_, opened.stream⟩) w other' taken
      refine ⟨content, length, (congrArg List.flatten stream).symm.trans flat, fun l => ?_⟩
      obtain ⟨e, found, ⟨same, _⟩ | rfl⟩ := Disk.renameFile_cases (w.leads roots) o' o renamed
      · exact absurd same (temporaryName_ne name)
      obtain rfl := Option.some.inj (found.symm.trans ((contents _).trans (if_pos rfl)))
      refine (FileTree.get?_erase _ _ l ne).trans ?_
      split
      · rfl
      rename_i away
      refine (FileTree.get?_put _ _ l _ (ne_nil _ _)).trans ?_
      split
      · rfl
      · exact (contents l).trans
          ((if_neg away).trans ((put l).trans ((if_neg away).trans (entered l))))

theorem clearLink {disk : Disk}
    (w : Within d₀ s.disk (k ++ [dump.entryName]) (some .directory) link)
    (roots : d₀.tree.RootsBeside d₀.cwd root k dump.entryName)
    (cleared : disk = s.disk ∨
      s.disk.removeFile ((dump.pathIn root).joinText linkName) = .ok disk) :
    (∃ link', Within d₀ disk (k ++ [dump.entryName]) (some .directory) link') ∧
      ∀ l, l ≠ k ++ [dump.entryName] ++ [linkEntry] → disk.tree.get? l = s.disk.tree.get? l := by
  obtain rfl | removed := cleared
  · exact ⟨⟨link, w⟩, fun _ _ => rfl⟩
  · obtain rfl := Disk.removeFile_cases (w.leads roots) ordinary_linkEntry removed
    exact ⟨⟨none, w.eraseLink⟩, fun l away =>
      (FileTree.get?_erase _ _ l (ne_nil _ _)).trans (if_neg away)⟩

theorem placeLink {pointsTo : String} {r : Except TransferError Unit}
    (w : Within d₀ s.disk (k ++ [dump.entryName]) place link)
    (roots : d₀.tree.RootsBeside d₀.cwd root k dump.entryName)
    (unlinked : ∀ target, place ≠ some (.link target))
    (h : Intake.placeLink (dump.pathIn root) pointsTo s = (r, s')) :
    s'.disk = s.disk ∧ r ≠ .ok () ∨
      ∃ link', Within d₀ s'.disk (k ++ [dump.entryName]) (some .directory) link' ∧
        (r = .ok () → link' = some (.link (Bytes.ofText pointsTo))) := by
  cases linkReceipt h with
  | noDirectory made =>
      exact (w.makeDirectory roots unlinked made).2.imp (fun same => ⟨same.1, nofun⟩)
        fun within => ⟨link, within.1, nofun⟩
  | kept made => exact .inr ⟨link, (w.makeDirectory_ok roots unlinked made).2.1, nofun⟩
  | cleared made cleared =>
      obtain ⟨_, w, _⟩ := w.makeDirectory_ok roots unlinked made
      obtain ⟨link', w⟩ := (w.clearLink roots cleared).1
      exact .inr ⟨link', w, nofun⟩
  | placed made cleared linked =>
      obtain ⟨_, w, _⟩ := w.makeDirectory_ok roots unlinked made
      obtain ⟨link', w⟩ := (w.clearLink roots cleared).1
      obtain rfl := (Disk.createLink_cases (w.leads roots) ordinary_linkEntry linked).2
      exact .inr ⟨_, w.putLink _, fun _ => rfl⟩

/-- What a link that was placed has changed. -/
theorem placeLink_ok {pointsTo : String} (w : Within d₀ s.disk (k ++ [dump.entryName]) place link)
    (roots : d₀.tree.RootsBeside d₀.cwd root k dump.entryName)
    (unlinked : ∀ target, place ≠ some (.link target))
    (h : Intake.placeLink (dump.pathIn root) pointsTo s = (.ok (), s')) (l : Location) :
    s'.disk.tree.get? l =
      if l = k ++ [dump.entryName] ++ [linkEntry] then some (.link (Bytes.ofText pointsTo))
      else if l = k ++ [dump.entryName] then some .directory
      else s.disk.tree.get? l := by
  cases linkReceipt h with
  | placed made cleared linked =>
      obtain ⟨_, w, entered⟩ := w.makeDirectory_ok roots unlinked made
      obtain ⟨⟨_, w⟩, same⟩ := w.clearLink roots cleared
      obtain rfl := (Disk.createLink_cases (w.leads roots) ordinary_linkEntry linked).2
      refine (FileTree.get?_put _ _ l _ (ne_nil _ _)).trans ?_
      split
      · rfl
      · rename_i away
        exact (same l away).trans (entered l)

end Within

end LiveMigration.Transfer
