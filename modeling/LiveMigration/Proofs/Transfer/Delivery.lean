import LiveMigration.Proofs.Transfer.Arrival

/-!
Dumps that have arrived. If the sender hears that a dump was taken, then the receiver has its
directory, with the link to the predecessor that was sent along, and without a link if there
is none.
-/

namespace LiveMigration.Transfer

open Lineage

/-- The directory of a dump that was taken, with or without a link to a parent. -/
structure Image (d : Disk) (l : Location) (linked : Bool) : Prop where
  directory : d.tree.get? l = some .directory
  short : ∀ name content, (name, .file content) ∈ d.tree.children l →
    content.length < UInt64.size
  linked : (∃ target, (linkEntry, .link target) ∈ d.tree.children l) ↔ linked = true

/-- Changes at the place of another dump. -/
theorem Image.of_outside {d d' : Disk} {R : Location} {name other : Bytes} {linked : Bool}
    (image : Image d (R ++ [name]) linked) (ne : name ≠ other)
    (same : d'.tree.outside (R ++ [other]) = d.tree.outside (R ++ [other])) :
    Image d' (R ++ [name]) linked := by
  have apart : ¬ R ++ [other] <+: R ++ [name] := by
    have := FileTree.apart_of_ne (k := R) ne []
    rwa [List.append_nil] at this
  have children : d'.tree.children (R ++ [name]) = d.tree.children (R ++ [name]) := by
    refine FileTree.children_of_outside same apart ?_
    intro inner eq
    have := congrArg List.length eq
    simp at this
  refine ⟨?_, ?_, ?_⟩
  · rw [FileTree.get?_of_outside same apart]
    exact image.directory
  · rw [children]
    exact image.short
  · rw [children]
    exact image.linked

/-- The link to the predecessor of a dump. -/
def linkTo (before : Option Dump) : Option Entry :=
  before.map fun b => .link (Bytes.ofText b.parentPath)

variable {dump : Dump} {before : Option Dump} {entries : List (Bytes × Entry)}

/-- What the link of a dump is sent as. -/
def sentLink (before : Option Dump) (own : Bytes) : String :=
  (before.map Dump.parentPath).getD (Bytes.display own)

/-- Files with a text for a name are sent, and so is the link; nothing else is. -/
theorem parcelOf_eq_some_iff {entry : Bytes × Entry} {p : Header × Bytes} :
    parcelOf dump before entry = some p ↔
      (∃ name content, entry = (Bytes.ofText name, .file content) ∧
        p = (.file dump.name name (UInt64.ofNat content.length) (Crc32.ofBytes content),
          content)) ∨
      ∃ own, entry = (linkEntry, .link own) ∧
        p = (.parentLink dump.name (sentLink before own), []) := by
  constructor
  · intro h
    unfold parcelOf at h
    obtain ⟨name, text, h⟩ := Option.bind_eq_some_iff.1 h
    rw [Bytes.text?_eq_some_iff] at text
    split at h
    · rename_i content file
      cases h
      exact .inl ⟨name, content, Prod.ext text file, rfl⟩
    · rename_i own link
      split at h
      · rename_i named
        cases h
        rw [named] at text
        refine .inr ⟨own, Prod.ext text link, ?_⟩
        cases before <;> rfl
      · cases h
    · cases h
  · rintro (⟨name, content, rfl, rfl⟩ | ⟨own, rfl, rfl⟩)
    · unfold parcelOf
      rw [Bytes.text?_ofText]
      rfl
    · unfold parcelOf
      rw [show Bytes.text? linkEntry = some linkName from Bytes.text?_ofText _]
      cases before <;> rfl

theorem fits_parcelOf {pointsTo : String} {entry : Bytes × Entry} {p : Header × Bytes}
    (short : ∀ content, entry.2 = .file content → content.length < UInt64.size)
    (target : ∀ own, entry = (linkEntry, .link own) → sentLink before own = pointsTo)
    (h : parcelOf dump before entry = some p) : Fits dump pointsTo p := by
  obtain ⟨name, content, rfl, rfl⟩ | ⟨own, rfl, rfl⟩ := parcelOf_eq_some_iff.1 h
  · exact ⟨rfl, (UInt64.toNat_ofNat_of_lt' (short content rfl)).symm⟩
  · exact ⟨rfl, target own rfl, rfl⟩

theorem isLink_parcels :
    (entries.filterMap (parcelOf dump before)).any isLink = true ↔
      ∃ target, (linkEntry, .link target) ∈ entries := by
  rw [List.any_eq_true]
  constructor
  · rintro ⟨p, mem, link⟩
    obtain ⟨entry, listed, h⟩ := List.mem_filterMap.1 mem
    obtain ⟨name, content, rfl, rfl⟩ | ⟨own, rfl, rfl⟩ := parcelOf_eq_some_iff.1 h
    · cases link
    · exact ⟨own, listed⟩
  · rintro ⟨target, mem⟩
    exact ⟨_, List.mem_filterMap.2 ⟨_, mem, parcelOf_eq_some_iff.2 (.inr ⟨target, rfl, rfl⟩)⟩, rfl⟩

theorem accepted_of_verdictOf {answer : Bytes} {outcome : Except TransferError String}
    (h : verdictOf dump answer = .ok ()) (same : (Verdict.ofOutcome outcome).encode = answer) :
    ∃ name, outcome = .ok name := by
  subst same
  unfold verdictOf at h
  cases hr : readAs Verdict.ofTree [(Verdict.ofOutcome outcome).encode] with
  | error e =>
      rw [hr] at h
      cases h
  | ok read =>
      obtain ⟨verdict, rest⟩ := read
      rw [hr] at h
      simp only [bind, Except.bind, pure, Except.pure] at h
      split at h
      · rename_i ok
        exact Verdict.isOk_of_readAs hr ok
      · cases h

variable {auth serving : Auth} {source root : Path} {R k : Location} {disk d₀ d : Disk}
  {place link : Option Entry} {stream : Inflow} {answer : Bytes}

/-- What was listed and sent is what was received if the sender hears that it was taken. -/
theorem receive_of_taken {pointsTo : String}
    (listed : disk.list (dump.pathIn source) = .ok entries)
    (fits : ∀ p ∈ entries.filterMap (parcelOf dump before), Fits dump pointsTo p)
    (w : Within d₀ d₀ (k ++ [dump.entryName]) place link)
    (roots : d₀.tree.RootsBeside d₀.cwd root k dump.entryName)
    (unlinked : ∀ target, place ≠ some (.link target))
    (sent : (outflow auth source disk dump before).result = .ok ())
    (flat : stream.flatten = (outflow auth source disk dump before).bytes)
    (served : serve serving root stream d₀ = (answer, d))
    (accepted : verdictOf dump answer = .ok ()) :
    Within d₀ d (k ++ [dump.entryName]) (some .directory)
        (if (entries.filterMap (parcelOf dump before)).any isLink then
          some (.link (Bytes.ofText pointsTo)) else link) ∧
      (∀ p ∈ entries.filterMap (parcelOf dump before), p.1.isAcceptable) ∧
      ∀ held, Holds d₀ (k ++ [dump.entryName]) held → Holds d (k ++ [dump.entryName])
        ((entries.filterMap (parcelOf dump before)).foldl arrive held) := by
  have outcome : ((Verdict.ofOutcome (Intake.receive serving root ⟨d₀, stream⟩).1).encode,
      (Intake.receive serving root ⟨d₀, stream⟩).2.disk) = (answer, d) := served
  obtain ⟨same, rfl⟩ := Prod.mk.inj outcome
  obtain ⟨name, ok⟩ := accepted_of_verdictOf accepted same
  rw [outflow, listed] at sent flat
  have written : writeAll auth (entries.filterMap (parcelOf dump before) ++
      [(.done dump.name, [])]) = ⟨(writeAll auth (parcels dump before entries)).bytes, .ok ()⟩ := by
    rw [← sent]
    rfl
  exact receive_fits (s := ⟨d₀, stream⟩) fits written flat w roots unlinked (Prod.ext ok rfl)

/-- What the receiver has of a dump when the sender hears that it was taken. -/
theorem delivered (leads : disk.Leads source R)
    (image : Image disk (R ++ [dump.entryName]) before.isSome)
    (w : Within d₀ d₀ (k ++ [dump.entryName]) place link)
    (roots : d₀.tree.Roots d₀.cwd root k) (sound : ∀ e, place = some e → e = .directory)
    (sent : (outflow auth source disk dump before).result = .ok ())
    (flat : stream.flatten = (outflow auth source disk dump before).bytes)
    (served : serve serving root stream d₀ = (answer, d))
    (accepted : verdictOf dump answer = .ok ()) :
    Within d₀ d (k ++ [dump.entryName]) (some .directory)
      (if before.isSome then linkTo before else link) := by
  have inside : disk.Leads (dump.pathIn source) (R ++ [dump.entryName]) :=
    leads.enter dump.ordinary_entryName (Nat.le_trans dump.length_entryName (by decide))
      image.directory
  obtain ⟨entries, listed⟩ : ∃ entries, disk.list (dump.pathIn source) = .ok entries := by
    unfold outflow at sent
    split at sent
    · cases sent
    · exact ⟨_, ‹_›⟩
  obtain rfl := Disk.list_cases inside listed
  have fits : ∀ p ∈ (disk.tree.children (R ++ [dump.entryName])).filterMap
      (parcelOf dump before), Fits dump ((before.map Dump.parentPath).getD "") p := by
    intro p mem
    obtain ⟨entry, mem, h⟩ := List.mem_filterMap.1 mem
    refine fits_parcelOf ?_ ?_ h
    · intro content file
      exact image.short entry.1 content (file ▸ mem)
    · rintro t rfl
      obtain ⟨b, rfl⟩ := Option.isSome_iff_exists.1 (image.linked.1 ⟨t, mem⟩)
      rfl
  have after := (receive_of_taken listed fits w (roots.beside dump.entryName)
    (fun target linked => nomatch sound _ linked) sent flat served accepted).1
  rw [Bool.eq_iff_iff.2 (isLink_parcels.trans image.linked)] at after
  cases before with
  | none => exact after
  | some b => exact after

end LiveMigration.Transfer
