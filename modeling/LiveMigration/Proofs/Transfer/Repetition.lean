import LiveMigration.Proofs.Transfer.Writes

/-!
Streams that are received twice. If a stream was taken once then it is taken once more, and the
second time changes nothing. The way to the dump root may go through links in it, and these may
be replaced; but a stream that replaces a link on the way to the root is not taken even once.
-/

namespace LiveMigration.Transfer

open Lineage

/-- All links below a location have the name of a link to a parent. -/
def LinksNamedParent (t : FileTree) (k : Location) : Prop :=
  ∀ l name target, t.get? (k ++ l ++ [name]) = some (.link target) → name = linkEntry

/-- A disk with a dump root, and a part of its tree that is enough to find it. -/
structure Grounded (base : FileTree) (root : Path) (k : Location) (d : Disk) : Prop where
  leads : base.Leads d.cwd root k
  keeps : base.Keeps d.tree

/-- The directory of a dump is there and can be gone into. -/
structure Inside (base : FileTree) (root : Path) (k : Location) (x : Dump) (d : Disk) : Prop
    extends Grounded base root k d where
  usable : Disk.Usable root x.entryName
  there : d.tree.get? (dumpPlace k x.name) = some .directory

variable {base : FileTree} {root : Path} {k l : Location} {x : Dump} {d d' : Disk}
  {s s' : Intake} {ws : Writes} {name pointsTo : String} {size : UInt64} {checksum : UInt32}

theorem Grounded.leadsRoot (g : Grounded base root k d) : d.Leads root k := g.leads.keep g.keeps

/-- The root is still found if no directory and no link on the way is written over. -/
theorem Grounded.step (g : Grounded base root k d) (cwd : d'.cwd = d.cwd)
    (got : ∀ l, d'.tree.get? l = after ws d.tree.get? l)
    (harmless : ∀ l v e, (l, v) ∈ ws → e.LeadsOn → base.get? l = some e → v = some e) :
    Grounded base root k d' := by
  refine ⟨cwd ▸ g.leads, fun l e leadsOn there => ?_⟩
  rw [got]
  obtain written | ⟨_, kept⟩ := after_cases ws d.tree.get? l
  · exact harmless l _ e written leadsOn there
  · rw [kept]
    exact g.keeps l e leadsOn there

theorem LinksNamedParent.step (links : LinksNamedParent d.tree k)
    (proper : ∀ w ∈ ws, Proper k w.1 w.2)
    (got : ∀ l, d'.tree.get? l = after ws d.tree.get? l) : LinksNamedParent d'.tree k := by
  intro l name target found
  rw [got] at found
  obtain written | ⟨_, kept⟩ := after_cases ws d.tree.get? (k ++ l ++ [name])
  · have proper := proper _ written
    rw [found] at proper
    exact proper.name_of_link
  · exact links l name target (kept.symm.trans found)

namespace Inside

theorem leadsIn (i : Inside base root k x d) : d.Leads (x.pathIn root) (dumpPlace k x.name) :=
  i.leadsRoot.enter x.ordinary_entryName i.usable.shortName i.there

theorem find (i : Inside base root k x d) :
    d.find (x.pathIn root) = .ok (.present (dumpPlace k x.name) .directory) := by
  have plain (target : Bytes) : d.tree.get? (k ++ [x.entryName]) ≠ some (.link target) := by
    intro link
    cases i.there.symm.trans link
  exact (i.usable.find i.leadsRoot plain).trans (congrArg _ (Disk.foundAt_of_some i.there))

/-- Nothing is in the place of a link when it is made, whether or not something was removed from
it. -/
theorem erase_link {final : Disk} (i : Inside base root k x d)
    (cleared : d' = d ∨ d.removeFile ((x.pathIn root).joinText linkName) = .ok d')
    (linked : d'.createLink (Bytes.ofText pointsTo) ((x.pathIn root).joinText linkName) =
      .ok final) :
    d'.cwd = d.cwd ∧
      ∀ l, d'.tree.get? l = after [(linkPlace k x.name, none)] d.tree.get? l := by
  obtain rfl | removed := cleared
  · refine ⟨rfl, fun l => ?_⟩
    rw [after]
    split
    · rename_i same
      rw [same]
      exact (Disk.createLink_cases i.leadsIn ordinary_linkEntry linked).1
    · rfl
  · obtain rfl := Disk.removeFile_cases i.leadsIn ordinary_linkEntry removed
    exact ⟨rfl, fun l => d.tree.get?_erase _ l (linkPlace_ne_nil k x.name)⟩

/-- The way to the root does not lead over a link that was made, for it was not there then. -/
theorem clearLink {final : Disk} (i : Inside base root k x d)
    (cleared : d' = d ∨ d.removeFile ((x.pathIn root).joinText linkName) = .ok d')
    (linked : d'.createLink (Bytes.ofText pointsTo) ((x.pathIn root).joinText linkName) =
      .ok final) :
    Inside (base.erase (linkPlace k x.name)) root k x d' ∧
      ∀ l, d'.tree.get? l = after [(linkPlace k x.name, none)] d.tree.get? l := by
  obtain ⟨cwd, without⟩ := i.erase_link cleared linked
  have base_erase (l : Location) : (base.erase (linkPlace k x.name)).get? l =
      if l = linkPlace k x.name then none else base.get? l :=
    base.get?_erase _ l (linkPlace_ne_nil k x.name)
  obtain ⟨_, found⟩ := Disk.free_of_createLink linked
  refine ⟨⟨⟨?_, fun l e leadsOn there => ?_⟩, i.usable, ?_⟩, without⟩
  · refine FileTree.Leads.spare (x := d'.tree) (cwd ▸ i.leads) ?_ x.ordinary_entryName
      ordinary_linkEntry found
    intro l e leadsOn there
    rw [base_erase, without, after]
    split
    · exact .inr rfl
    · exact .inl ⟨there, i.keeps l e leadsOn there⟩
  · rw [base_erase] at there
    rw [without, after]
    split at there
    · cases there
    · rw [if_neg ‹_›]
      exact i.keeps l e leadsOn there
  · rw [without, after, if_neg (by simp [linkPlace])]
    exact i.there

end Inside

theorem entryName_ne_linkEntry (x : Dump) : x.entryName ≠ linkEntry := by
  intro same
  have named : x.name = linkName := Bytes.ofText_injective same
  have read := x.ofName_name
  rw [named] at read
  have bad : (Dump.ofName linkName).isOk = false := by decide
  rw [read] at bad
  cases bad

theorem LinksNamedParent.noLink (links : LinksNamedParent d.tree k) (x : Dump)
    (target : Bytes) : d.tree.get? (dumpPlace k x.name) ≠ some (.link target) := by
  intro found
  refine entryName_ne_linkEntry x (links [] x.entryName target ?_)
  rwa [List.append_nil]

theorem LinksNamedParent.noLink_inside (links : LinksNamedParent d.tree k) {dump : String}
    {name : Bytes} (other : name ≠ linkEntry) (target : Bytes) :
    d.tree.get? (dumpPlace k dump ++ [name]) ≠ some (.link target) :=
  fun found => other (links [Bytes.ofText dump] name target found)

/-! ## The first time -/

/-- A header that can be acted on, with the right bytes behind it, if no name is too long. -/
inductive Fit (root : Path) : Header × Bytes → Prop
  | file (x : Dump) {name : String} {size : UInt64} {checksum : UInt32} {content : Bytes}
      (directory : Disk.Usable root x.entryName) (plainName : Intake.isPlainName name = true)
      (usable : Disk.Usable (x.pathIn root) (Bytes.ofText (Intake.temporaryName name)))
      (length : content.length = size.toNat) (right : Crc32.ofBytes content = checksum) :
      Fit root (.file x.name name size checksum, content)
  | parentLink (x : Dump) {pointsTo : String} (directory : Disk.Usable root x.entryName)
      (sibling : Intake.checkLink pointsTo = .ok ())
      (usable : Disk.Usable (x.pathIn root) linkEntry)
      (linkable : Disk.Linkable (Bytes.ofText pointsTo)) :
      Fit root (.parentLink x.name pointsTo, [])
  | done (x : Dump) (directory : Disk.Usable root x.entryName) : Fit root (.done x.name, [])

/-- A header that fits writes only what is proper. -/
theorem Fit.proper {p : Header × Bytes} (fit : Fit root p) (k : Location) :
    ∀ w ∈ writes k p, Proper k w.1 w.2 := by
  cases fit with
  | @file x _ _ _ content _ plainName =>
      obtain ⟨o, other⟩ := ordinary_of_isPlainName plainName
      obtain ⟨_, other'⟩ := ordinary_temporaryName o
      refine List.forall_mem_cons.2 ⟨.file _ other' nofun, List.forall_mem_cons.2
        ⟨.file _ other fun e there => ?_, List.forall_mem_singleton.2 (.directory _)⟩⟩
      cases there
      exact ⟨content, rfl⟩
  | parentLink =>
      exact List.forall_mem_cons.2 ⟨.link _ _, List.forall_mem_singleton.2 (.directory _)⟩
  | done => exact List.forall_mem_singleton.2 (.directory _)

theorem proper_history {ps : List (Header × Bytes)} (fit : ∀ p ∈ ps, Fit root p) (k : Location) :
    ∀ w ∈ history k ps, Proper k w.1 w.2 := by
  intro w mem
  obtain ⟨p, hp, mem⟩ := mem_history.1 mem
  exact (fit p hp).proper k w mem

/-- What accepted headers have written, and a part of the tree that leads to the root past their
links. -/
structure Received (base : FileTree) (root : Path) (k : Location) (before : Disk)
    (ps : List (Header × Bytes)) (d : Disk) : Prop where
  fit : ∀ p ∈ ps, Fit root p
  got : ∀ l, d.tree.get? l = after (history k ps) before.tree.get? l
  grounded : ∃ base', Grounded base' root k d ∧ (∀ l, base.get? l = none → base'.get? l = none) ∧
    ∀ l target, (l, some (.link target)) ∈ history k ps → base'.get? l = none

namespace Grounded

theorem makeDirectory (g : Grounded base root k s.disk) (links : LinksNamedParent s.disk.tree k)
    (h : Intake.makeDirectory (x.pathIn root) s = (.ok (), s')) :
    Inside base root k x s'.disk ∧ s'.stream = s.stream ∧
      s'.disk.tree.get? = after [(dumpPlace k x.name, some .directory)] s.disk.tree.get? := by
  obtain ⟨made, created, ok_iff, stream⟩ := createDirectories_of_makeDirectory h
  obtain rfl := ok_iff.1 rfl
  have usable := Disk.usable_of_createDirectories g.leadsRoot x.ordinary_entryName
    (links.noLink x) created
  obtain ⟨vacant, same⟩ | ⟨same, there⟩ := Disk.createDirectories_cases g.leadsRoot
    x.ordinary_entryName (links.noLink x) created
  · have got : s'.disk.tree.get? =
        after [(dumpPlace k x.name, some .directory)] s.disk.tree.get? := by
      rw [same]
      exact funext fun l => s.disk.tree.get?_put _ l _ (by simp)
    have cwd : s'.disk.cwd = s.disk.cwd := by rw [same]; rfl
    refine ⟨⟨g.step cwd (congrFun got) ?_, usable, ?_⟩, stream, got⟩
    · intro l v e mem leadsOn found
      obtain ⟨rfl, rfl⟩ := Prod.mk.inj (List.mem_singleton.1 mem)
      cases vacant.symm.trans (g.keeps _ e leadsOn found)
    · exact (congrFun got _).trans (if_pos rfl)
  · have there := there rfl
    rw [same]
    exact ⟨⟨g, usable, there⟩, stream, funext fun l => (after_of_there there).symm⟩

/-- How a file was received. -/
theorem receiveFile (g : Grounded base root k s.disk) (links : LinksNamedParent s.disk.tree k)
    (plainName : Intake.isPlainName name = true)
    (h : Intake.receiveFile (x.pathIn root) name size checksum s = (.ok (), s')) :
    Received base root k s.disk
      [(.file x.name name size checksum, s.stream.flatten.take size.toNat)] s'.disk := by
  obtain ⟨o, other⟩ := ordinary_of_isPlainName plainName
  obtain ⟨_, other'⟩ := ordinary_temporaryName o
  have made : ∃ opened, Intake.makeDirectory (x.pathIn root) s = (.ok (), opened) := by
    cases fileReceipt h with
    | named made => exact ⟨_, made⟩
  obtain ⟨opened, made⟩ := made
  obtain ⟨inside, stream, entered⟩ := g.makeDirectory links made
  have links' : LinksNamedParent opened.disk.tree k :=
    links.step (List.forall_mem_singleton.2 (.directory _)) (congrFun entered)
  rw [receiveFile_of_made size checksum inside.find made] at h
  have ready := Ready.of_receiveFile inside.find plainName (links'.noLink_inside other') h
  obtain ⟨outcome, _, cwd, contents⟩ := ready.receiveFile size checksum
  rw [h] at outcome cwd contents
  rw [← stream]
  have complete := complete_of_receiptOf outcome.symm
  have got (l : Location) : s'.disk.tree.get? l =
      after [(temporaryPlace (dumpPlace k x.name) name, none),
        (finalPlace (dumpPlace k x.name) name,
          some (.file (opened.stream.flatten.take size.toNat)))] opened.disk.tree.get? l := by
    refine (contents l).trans ?_
    rw [after, after, after]
    simp only [and_iff_left complete]
  have fit := Fit.file x inside.usable plainName ready.usable
    (List.length_take_of_le complete.1) complete.2
  refine ⟨List.forall_mem_singleton.2 fit, fun l => ?_, base,
    inside.toGrounded.step cwd got ?_, fun _ => id, ?_⟩
  · rw [got, entered, ← after_append]
    rfl
  · intro l v e mem leadsOn found
    have there := inside.keeps l e leadsOn found
    obtain same | same := List.mem_cons.1 mem
    · obtain ⟨rfl, rfl⟩ := Prod.mk.inj same
      obtain ⟨content, rfl⟩ := ready.temporary e there
      exact leadsOn.elim
    · obtain ⟨rfl, rfl⟩ := Prod.mk.inj (List.mem_singleton.1 same)
      cases e with
      | directory => exact absurd there ready.final
      | link target => exact absurd there (links'.noLink_inside other target)
      | file | special => exact leadsOn.elim
  · intro l target mem
    simp [history, writes] at mem

/-- How a link was made. -/
theorem placeLink (g : Grounded base root k s.disk) (links : LinksNamedParent s.disk.tree k)
    (sibling : Intake.checkLink pointsTo = .ok ())
    (h : Intake.placeLink (x.pathIn root) pointsTo s = (.ok (), s')) :
    Received base root k s.disk [(.parentLink x.name pointsTo, [])] s'.disk := by
  cases linkReceipt h with
  | @placed opened disk final made cleared linked =>
      obtain ⟨there, _, entered⟩ := g.makeDirectory links made
      obtain ⟨inside, without⟩ := there.clearLink cleared linked
      obtain ⟨_, found⟩ := Disk.free_of_createLink linked
      have usable := Disk.usable_of_findEntry inside.leadsIn ordinary_linkEntry found
      have fit := Fit.parentLink x inside.usable sibling usable
        (Disk.linkable_of_createLink linked)
      obtain ⟨_, rfl⟩ := Disk.createLink_cases inside.leadsIn ordinary_linkEntry linked
      have put (l : Location) : (disk.change (.put (linkPlace k x.name)
          (.link (Bytes.ofText pointsTo)))).tree.get? l =
            after [(linkPlace k x.name, some (.link (Bytes.ofText pointsTo)))] disk.tree.get? l :=
        disk.tree.get?_put _ l _ (linkPlace_ne_nil k x.name)
      have base_erase (l : Location) : (base.erase (linkPlace k x.name)).get? l =
          if l = linkPlace k x.name then none else base.get? l :=
        base.get?_erase _ l (linkPlace_ne_nil k x.name)
      refine ⟨List.forall_mem_singleton.2 fit, fun l => ?_, _, inside.toGrounded.step rfl put ?_,
        fun l none => ?_, fun l target mem => ?_⟩
      · refine (put l).trans ?_
        rw [funext without, after_over, entered, ← after_append]
        rfl
      · intro l v e mem leadsOn found
        obtain ⟨rfl, rfl⟩ := Prod.mk.inj (List.mem_singleton.1 mem)
        rw [base_erase, if_pos rfl] at found
        cases found
      · rw [base_erase, none, ite_self]
      · have here : l = linkPlace k x.name ∧ target = Bytes.ofText pointsTo := by
          simpa [history, writes] using mem
        rw [base_erase, if_pos here.1]

/-- How any header was accepted. -/
theorem apply {header : Header} {done : Option String} (g : Grounded base root k s.disk)
    (links : LinksNamedParent s.disk.tree k)
    (h : Intake.apply root s header = (.ok done, s')) :
    Received base root k s.disk [(header, s.stream.flatten.take header.contentLength)] s'.disk := by
  cases headerReceipt h with
  | @file x _ _ _ _ r _ plainName received same =>
      cases r <;> cases same
      exact g.receiveFile links plainName received
  | @parentLink x _ _ r _ sibling placed same =>
      cases r <;> cases same
      exact g.placeLink links sibling placed
  | @done x _ r _ made same =>
      cases r <;> cases same
      obtain ⟨inside, _, entered⟩ := g.makeDirectory links made
      refine ⟨List.forall_mem_singleton.2 (.done x inside.usable), congrFun entered, base,
        inside.toGrounded, fun _ => id, fun l target mem => ?_⟩
      simp [history, writes] at mem

end Grounded

/-- The dump that is complete in the end. -/
def completed : List (Header × Bytes) → Option String
  | [] => none
  | p :: ps => p.1.completed?.or (completed ps)

/-- What a stream that was received has written. -/
theorem Grounded.receive {auth : Auth} {ps : List (Header × Bytes)}
    (g : Grounded base root k s.disk) (links : LinksNamedParent s.disk.tree k)
    (taking : Taking auth root s ps name s') :
    completed ps = some name ∧ Received base root k s.disk ps s'.disk := by
  induction taking generalizing base with
  | @last s next stream header dump _ applied =>
      obtain ⟨last, _, _⟩ := taken_of_apply applied
      have received := Grounded.apply (s := ⟨s.disk, stream⟩) g links applied
      cases header with
      | file | parentLink => cases last
      | done d =>
          cases last
          exact ⟨rfl, received⟩
  | @cons s next s' stream header dump ps _ applied _ ih =>
      obtain ⟨more, _, _⟩ := taken_of_apply applied
      obtain ⟨fit, got, base₁, grounded, gone, clear⟩ :=
        Grounded.apply (s := ⟨s.disk, stream⟩) g links applied
      have links' : LinksNamedParent next.disk.tree k :=
        LinksNamedParent.step links (proper_history fit k) got
      obtain ⟨last, fit', got', base₂, grounded', gone', clear'⟩ := ih grounded links'
      refine ⟨?_, List.forall_mem_cons.2 ⟨List.forall_mem_singleton.1 fit, fit'⟩, fun l => ?_,
        base₂, grounded', fun l none => gone' l (gone l none), fun l target mem => ?_⟩
      · rw [completed, ← more]
        exact last
      · rw [got', funext got, ← after_append]
        rfl
      · obtain later | first := List.mem_append.1 mem
        · exact clear' l target later
        · exact gone' l (clear l target first)

/-! ## The second time -/

/-- A disk that has been written on as it will be once more, with a way to the root past all
links that are written. -/
structure Settled (base : FileTree) (root : Path) (k : Location) (ws : Writes) (d : Disk) : Prop
    extends Grounded base root k d where
  proper : ∀ l v, (l, v) ∈ ws → Proper k l (d.tree.get? l)
  clear : ∀ l target, (l, some (.link target)) ∈ ws → base.get? l = none

namespace Settled

/-- It stays so while some of this is written. -/
theorem step {ws' : Writes} (w : Settled base root k ws d) (sub : ws' ⊆ ws)
    (proper : ∀ w ∈ ws', Proper k w.1 w.2) (cwd : d'.cwd = d.cwd)
    (got : ∀ l, d'.tree.get? l = after ws' d.tree.get? l) : Settled base root k ws d' := by
  refine ⟨w.toGrounded.step cwd got ?_, fun l v mem => ?_, w.clear⟩
  · intro l v e mem leadsOn found
    have there := w.keeps l e leadsOn found
    have before := w.proper l v (sub mem)
    rw [there] at before
    have written : Proper k l v := proper _ mem
    cases written with
    | directory => exact before.eq_directory.symm
    | file _ other =>
        obtain ⟨content, rfl⟩ := before.isFile other e rfl
        exact leadsOn.elim
    | link _ target =>
        rw [w.clear _ target (sub mem)] at found
        cases found
  · rw [got]
    exact proper_after proper (.inr (w.proper l v mem))

theorem inside (w : Settled base root k ws d) (usable : Disk.Usable root x.entryName)
    (mem : (dumpPlace k x.name, some .directory) ∈ ws) : Inside base root k x d :=
  ⟨w.toGrounded, usable, (w.proper _ _ mem).eq_directory⟩

theorem receiveFile {content behind : Bytes} (w : Settled base root k ws s.disk)
    (directory : Disk.Usable root x.entryName) (plainName : Intake.isPlainName name = true)
    (usable : Disk.Usable (x.pathIn root) (Bytes.ofText (Intake.temporaryName name)))
    (length : content.length = size.toNat) (right : Crc32.ofBytes content = checksum)
    (sub : writes k (.file x.name name size checksum, content) ⊆ ws)
    (flat : s.stream.flatten = content ++ behind) :
    ∃ s', Intake.receiveFile (x.pathIn root) name size checksum s = (.ok (), s') ∧
      s'.stream.flatten = behind ∧ s'.disk.cwd = s.disk.cwd ∧ ∀ l, s'.disk.tree.get? l =
        after (writes k (.file x.name name size checksum, content)) s.disk.tree.get? l := by
  obtain ⟨o, other⟩ := ordinary_of_isPlainName plainName
  obtain ⟨_, other'⟩ := ordinary_temporaryName o
  have inside := w.inside directory (sub (by simp [writes]))
  have temporary := w.proper (temporaryPlace (dumpPlace k x.name) name) none
    (sub (by simp [writes]))
  have final := w.proper (finalPlace (dumpPlace k x.name) name) (some (.file content))
    (sub (by simp [writes]))
  have ready : Ready s.disk (x.pathIn root) (dumpPlace k x.name) name := by
    refine ⟨inside.find, plainName, usable, temporary.isFile other', fun there => ?_⟩
    obtain ⟨_, same⟩ := final.isFile other _ there
    cases same
  have take : s.stream.flatten.take size.toNat = content := by
    rw [flat, ← length, List.take_left]
  have complete : Complete size checksum s.stream.flatten := by
    refine ⟨?_, by rw [take]; exact right⟩
    rw [flat, List.length_append]
    omega
  obtain ⟨outcome, rest, cwd, contents⟩ := ready.receiveFile size checksum
  refine ⟨_, Prod.ext (outcome.trans (receiptOf_complete complete)) rfl, ?_, cwd, fun l => ?_⟩
  · rw [rest, flat, ← length, List.drop_left]
  · rw [contents, take, writes, after, after, after_of_there inside.there]
    simp only [and_iff_left complete]

theorem placeLink (w : Settled base root k ws s.disk) (directory : Disk.Usable root x.entryName)
    (usable : Disk.Usable (x.pathIn root) linkEntry)
    (linkable : Disk.Linkable (Bytes.ofText pointsTo))
    (sub : writes k (.parentLink x.name pointsTo, []) ⊆ ws) :
    ∃ s', Intake.placeLink (x.pathIn root) pointsTo s = (.ok (), s') ∧
      s'.stream = s.stream ∧ s'.disk.cwd = s.disk.cwd ∧ ∀ l, s'.disk.tree.get? l =
        after (writes k (.parentLink x.name pointsTo, [])) s.disk.tree.get? l := by
  have inside := w.inside directory (sub (by simp [writes]))
  have mem := sub (List.mem_cons_self ..)
  obtain ⟨target, there⟩ := (w.proper _ _ mem).isLink
  have ne := linkPlace_ne_nil k x.name
  let cleared := s.disk.change (.erase (linkPlace k x.name))
  have inspected : s.disk.inspectEntry ((x.pathIn root).joinText linkName) =
      .ok (.link target) := by
    have found := usable.findEntry inside.leadsIn
    rw [show dumpPlace k x.name ++ [linkEntry] = linkPlace k x.name from rfl,
      Disk.foundAt_of_some there] at found
    unfold Disk.inspectEntry
    rw [show (x.pathIn root).joinText linkName = (x.pathIn root).join linkEntry from rfl, found]
  have removed : s.disk.removeFile ((x.pathIn root).joinText linkName) = .ok cleared :=
    usable.removeFile inside.leadsIn there nofun
  have without (l : Location) : cleared.tree.get? l =
      after [(linkPlace k x.name, none)] s.disk.tree.get? l := s.disk.tree.get?_erase _ l ne
  have grounded : Grounded base root k cleared := by
    refine w.toGrounded.step rfl without fun l v e here _ found => ?_
    obtain ⟨rfl, rfl⟩ := Prod.mk.inj (List.mem_singleton.1 here)
    rw [w.clear _ _ mem] at found
    cases found
  have inside' : Inside base root k x cleared := by
    refine ⟨grounded, directory, ?_⟩
    rw [without, after, if_neg (by simp [linkPlace])]
    exact inside.there
  have linked : cleared.createLink (Bytes.ofText pointsTo) ((x.pathIn root).joinText linkName) =
      .ok (cleared.change (.put (linkPlace k x.name) (.link (Bytes.ofText pointsTo)))) :=
    usable.createLink inside'.leadsIn linkable ((without _).trans (if_pos rfl))
  refine ⟨⟨cleared.change (.put (linkPlace k x.name) (.link (Bytes.ofText pointsTo))), s.stream⟩,
    ?_, rfl, rfl, fun l => ?_⟩
  · unfold Intake.placeLink
    rw [makeDirectory_of_find inside.find]
    dsimp only
    rw [inspected]
    dsimp only
    rw [removed]
    dsimp only
    rw [linked]
  · have put : (cleared.tree.put (linkPlace k x.name) (.link (Bytes.ofText pointsTo))).get? l =
        after [(linkPlace k x.name, some (.link (Bytes.ofText pointsTo)))] cleared.tree.get? l :=
      cleared.tree.get?_put _ l _ ne
    refine put.trans ?_
    rw [funext without, after_over]
    exact if_congr Iff.rfl rfl (after_of_there inside.there).symm

/-- A header that was acted on can be acted on once more. -/
theorem apply {header : Header} {content behind : Bytes} (w : Settled base root k ws s.disk)
    (fit : Fit root (header, content)) (sub : writes k (header, content) ⊆ ws)
    (flat : s.stream.flatten = content ++ behind) :
    ∃ s', Intake.apply root s header = (.ok header.completed?, s') ∧
      s'.stream.flatten = behind ∧
      (∀ l, s'.disk.tree.get? l = after (writes k (header, content)) s.disk.tree.get? l) ∧
      Settled base root k ws s'.disk := by
  suffices done : ∃ s', Intake.apply root s header = (.ok header.completed?, s') ∧
      s'.stream.flatten = behind ∧ s'.disk.cwd = s.disk.cwd ∧
      ∀ l, s'.disk.tree.get? l = after (writes k (header, content)) s.disk.tree.get? l by
    obtain ⟨s', applied, rest, cwd, got⟩ := done
    exact ⟨s', applied, rest, got, w.step sub (fit.proper k) cwd got⟩
  cases fit with
  | file x directory plainName usable length right =>
      obtain ⟨s', received, rest, cwd, got⟩ :=
        w.receiveFile directory plainName usable length right sub flat
      refine ⟨s', ?_, rest, cwd, got⟩
      simp only [Intake.apply, directoryOf_name, Intake.checkName, if_pos plainName, received]
      rfl
  | parentLink x directory sibling usable linkable =>
      obtain ⟨s', placed, rest, cwd, got⟩ := w.placeLink directory usable linkable sub
      refine ⟨s', ?_, (congrArg List.flatten rest).trans flat, cwd, got⟩
      simp only [Intake.apply, directoryOf_name, sibling, placed]
      rfl
  | done x directory =>
      have inside := w.inside directory (sub (by simp [writes]))
      refine ⟨s, ?_, flat, rfl, fun l => (after_of_there inside.there).symm⟩
      simp only [Intake.apply, directoryOf_name, makeDirectory_of_find inside.find]
      rfl

/-- A stream that was received can be received once more. -/
theorem receive {auth : Auth} {ps : List (Header × Bytes)} {stream rest : Inflow}
    (reading : Reading auth stream ps rest) (w : Settled base root k ws s.disk)
    (sub : history k ps ⊆ ws) (fit : ∀ p ∈ ps, Fit root p)
    (flat : s.stream.flatten = stream.flatten) :
    ∃ name s', completed ps = some name ∧ Intake.receive auth root s = (.ok name, s') ∧
      s'.stream.flatten = rest.flatten ∧
      ∀ l, s'.disk.tree.get? l = after (history k ps) s.disk.tree.get? l := by
  induction reading generalizing s with
  | @last stream rest header read last =>
      obtain ⟨name, last⟩ := Option.isSome_iff_exists.1 last
      obtain ⟨rest', read, behind⟩ := readHeader_more (flat.trans (List.append_nil _).symm) read
      rw [List.append_nil] at behind
      obtain ⟨s', applied, final, got, _⟩ := Settled.apply (s := ⟨s.disk, rest'⟩) w
        (List.forall_mem_singleton.1 fit) sub (List.nil_append _).symm
      refine ⟨name, s', ?_, ?_, final.trans behind, got⟩
      · rw [completed, last]
        rfl
      · rw [receive_of_header read, applied, last]
  | cons read more taken later ih =>
      obtain ⟨stream', read, behind⟩ := readHeader_more (flat.trans (List.append_nil _).symm) read
      rw [List.append_nil, (Inflow.flatten_of_readExact taken).1] at behind
      obtain ⟨first, others⟩ := List.forall_mem_cons.1 fit
      obtain ⟨next, applied, flat', got, w'⟩ := Settled.apply (s := ⟨s.disk, stream'⟩) w first
        (fun _ mem => sub (List.mem_append_right _ mem)) behind
      obtain ⟨name, s', last, received, final, got'⟩ :=
        ih w' (fun _ mem => sub (List.mem_append_left _ mem)) others flat'
      refine ⟨name, s', ?_, ?_, final, fun l => ?_⟩
      · rw [completed, more]
        exact last
      · rw [receive_of_header read, applied, more]
        exact received
      · rw [got', funext got, ← after_append]
        rfl

end Settled

/-- If a dump root has no other links than those to parents, a stream that was received is received
once more, with the same answer, and nothing in the tree is changed by that. It may come cut
in other pieces. -/
theorem repeated_transfer {auth : Auth} {stream again : Inflow} {s₁ : Intake}
    (present : d.find root = .ok (.present k .directory)) (links : LinksNamedParent d.tree k)
    (received : Intake.receive auth root ⟨d, stream⟩ = (.ok name, s₁))
    (same : again.flatten = stream.flatten) :
    ∃ s₂, Intake.receive auth root ⟨s₁.disk, again⟩ = (.ok name, s₂) ∧
      s₂.stream.flatten = s₁.stream.flatten ∧
      ∀ l, s₂.disk.tree.get? l = s₁.disk.tree.get? l := by
  have grounded : Grounded d.tree root k d :=
    ⟨FileTree.leads_of_find present, fun _ _ _ there => there⟩
  obtain ⟨ps, taking⟩ := taking_of_receive received
  obtain ⟨rest, reading, flat⟩ := taking.reading
  obtain ⟨last, fit, got, base, grounded, _, clear⟩ := grounded.receive links taking
  have settled : Settled base root k (history k ps) s₁.disk := by
    refine ⟨grounded, fun l v mem => ?_, clear⟩
    rw [got]
    exact proper_after (proper_history fit k) (.inl ⟨v, mem⟩)
  obtain ⟨name', s₂, last', received', flat', got'⟩ :=
    Settled.receive (s := ⟨s₁.disk, again⟩) reading settled (List.Subset.refl _) fit same
  obtain rfl := Option.some.inj (last.symm.trans last')
  refine ⟨s₂, received', flat'.trans flat, fun l => ?_⟩
  rw [got', funext got, after_after]

/-- A dump with a link that leads out of the dump root. -/
def sampleStale : Disk :=
  .ofTree ⟨[([Bytes.ofText "d1"], .directory),
    ([Bytes.ofText "d1", linkEntry], .link (Bytes.ofText "/etc"))]⟩ []

/-- A file that stands where the next one is kept for a while, and two links for the dump. -/
def sampleClashes : Bytes :=
  (writeAll none [(.file "d1" ".a.part" 1 (Crc32.ofBytes [0x31]), [0x31]),
    (.file "d1" "a" 1 (Crc32.ofBytes [0x32]), [0x32]), (.parentLink "d1" "../p0", []),
    (.parentLink "d1" "../d0", []), (.done "d1", [])]).bytes

/-- The first file is gone in the end, both times. -/
theorem repeated_transfer_sample :
    let first := Intake.receive none ⟨[Path.slash]⟩ ⟨sampleStale, [sampleClashes]⟩
    first.2.disk.tree.get? [Bytes.ofText "d1", Bytes.ofText ".a.part"] = none ∧
    first.2.disk.tree.get? [Bytes.ofText "d1", linkEntry] = some (.link (Bytes.ofText "../d0")) ∧
    ∃ s₂, Intake.receive none ⟨[Path.slash]⟩
        ⟨first.2.disk, [sampleClashes.take 50, sampleClashes.drop 50]⟩ = (.ok "d1", s₂) ∧
      ∀ l, s₂.disk.tree.get? l = first.2.disk.tree.get? l := by
  intro first
  have present : sampleStale.find ⟨[Path.slash]⟩ = .ok (.present [] .directory) := by
    decide +kernel
  have links : LinksNamedParent sampleStale.tree [] := by
    intro l name target found
    have mem := FileTree.mem_of_get? found (by simp)
    simp only [List.nil_append, sampleStale, Disk.ofTree, List.mem_cons, List.not_mem_nil,
      or_false, Prod.mk.injEq, reduceCtorEq, and_false, false_or] at mem
    have last : l ++ [name] = [Bytes.ofText "d1"] ++ [linkEntry] := mem.1
    exact (List.cons.inj (List.append_inj' last rfl).2).1
  have accepted : first.1 = .ok "d1" ∧
      first.2.disk.tree.get? [Bytes.ofText "d1", Bytes.ofText ".a.part"] = none ∧
      first.2.disk.tree.get? [Bytes.ofText "d1", linkEntry] =
        some (.link (Bytes.ofText "../d0")) := by
    decide +kernel
  obtain ⟨ok, gone, link⟩ := accepted
  have flat : [sampleClashes.take 50, sampleClashes.drop 50].flatten =
      [sampleClashes].flatten := by simp
  obtain ⟨s₂, received, _, same⟩ := repeated_transfer present links (Prod.ext ok rfl) flat
  exact ⟨gone, link, s₂, received, same⟩

end LiveMigration.Transfer
