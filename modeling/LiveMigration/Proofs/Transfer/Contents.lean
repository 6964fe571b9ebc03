import LiveMigration.Proofs.Transfer.Delivery
import Mathlib.Data.List.Induction
import Mathlib.Data.List.Nodup

/-!
What a directory holds after a dump was delivered into it. Files arrive one after another, each
of them by way of a temporary name that is made from its own. So a file is there in the end,
byte by byte, unless its name is the temporary one of a file that was sent after it; the link
is there if there was one, and nothing else is.
-/

namespace LiveMigration.Transfer

open Lineage

/-- An entry is a file that comes by way of a name. -/
def Displaces (e : Bytes × Entry) (name : Bytes) : Prop :=
  ∃ other content, e = (Bytes.ofText other, .file content) ∧
    name = Bytes.ofText (Intake.temporaryName other)

/-- Behind the entry of some name a file is listed that comes by way of this name. -/
def Displaced (entries : List (Bytes × Entry)) (name : Bytes) : Prop :=
  ∃ e later, [(name, e), later].Sublist entries ∧ Displaces later name

variable {dump : Dump} {before : Option Dump} {entries : List (Bytes × Entry)} {name : Bytes}

theorem displaces_file {other : String} {content : Bytes} :
    Displaces (Bytes.ofText other, .file content) name ↔
      name = Bytes.ofText (Intake.temporaryName other) := by
  constructor
  · rintro ⟨other', content', same, rfl⟩
    rw [Bytes.ofText_injective (Prod.mk.inj same).1]
  · exact fun same => ⟨other, content, rfl, same⟩

theorem not_displaces_link {own : Bytes} : ¬ Displaces (linkEntry, .link own) name := by
  rintro ⟨other, content, same, _⟩
  cases (Prod.mk.inj same).2

theorem displaced_concat {x : Bytes × Entry} :
    Displaced (entries ++ [x]) name ↔
      Displaced entries name ∨ (∃ e, (name, e) ∈ entries) ∧ Displaces x name := by
  constructor
  · rintro ⟨e, later, sub, displaces⟩
    obtain ⟨front, back, split, front_sub, back_sub⟩ := List.sublist_append_iff.1 sub
    rcases List.sublist_singleton.1 back_sub with rfl | rfl
    · rw [List.append_nil] at split
      exact .inl ⟨e, later, split ▸ front_sub, displaces⟩
    · obtain ⟨rfl, rfl⟩ : front = [(name, e)] ∧ x = later := by
        have := List.append_inj' (show [(name, e)] ++ [later] = front ++ [x] from split) rfl
        exact ⟨this.1.symm, (List.singleton_inj.1 this.2).symm⟩
      exact .inr ⟨⟨e, List.singleton_sublist.1 front_sub⟩, displaces⟩
  · rintro (⟨e, later, sub, displaces⟩ | ⟨⟨e, mem⟩, displaces⟩)
    · exact ⟨e, later, sub.trans (List.sublist_append_left ..), displaces⟩
    · refine ⟨e, x, ?_, displaces⟩
      exact (List.singleton_sublist.2 mem).append (List.Sublist.refl [x])

/-! ## Arriving one after another -/

/-- What a directory holds of a listing that was sent into it. -/
structure Reflects (before : Option Dump) (entries : List (Bytes × Entry))
    (held : Bytes → Option Entry) : Prop where
  file : ∀ name content, held name = some (.file content) ↔
    (name, .file content) ∈ entries ∧ Bytes.IsText name ∧ ¬ Displaced entries name
  link : ∀ name target, held name = some (.link target) ↔
    name = linkEntry ∧ ∃ own, (linkEntry, .link own) ∈ entries ∧
      target = Bytes.ofText (sentLink before own)
  only : ∀ name e, held name = some e → (∃ content, e = .file content) ∨ ∃ target, e = .link target

namespace Reflects

variable {held : Bytes → Option Entry} {x : Bytes × Entry}

theorem nil : Reflects before [] fun _ => none := by
  refine ⟨?_, ?_, ?_⟩ <;> simp

/-- An entry that is not sent. -/
theorem skip (r : Reflects before entries held) (unsent : parcelOf dump before x = none) :
    Reflects before (entries ++ [x]) held := by
  have sent {p : Header × Bytes} (h : parcelOf dump before x = some p) : False := by
    rw [unsent] at h
    cases h
  have noFile {other : String} {content : Bytes} (same : x = (Bytes.ofText other, .file content)) :
      False := sent (parcelOf_eq_some_iff.2 (.inl ⟨other, content, same, rfl⟩))
  have noLink {own : Bytes} (same : x = (linkEntry, .link own)) : False :=
    sent (parcelOf_eq_some_iff.2 (.inr ⟨own, same, rfl⟩))
  refine ⟨fun name content => ?_, fun name target => ?_, r.only⟩
  · rw [r.file, List.mem_append, List.mem_singleton, displaced_concat]
    constructor
    · rintro ⟨mem, text, stays⟩
      refine ⟨.inl mem, text, ?_⟩
      rintro (gone | ⟨_, other, content', same, _⟩)
      · exact stays gone
      · exact noFile same
    · rintro ⟨mem | same, text, stays⟩
      · exact ⟨mem, text, fun gone => stays (.inl gone)⟩
      · obtain ⟨other, rfl⟩ := text
        exact (noFile same.symm).elim
  · rw [r.link]
    refine and_congr_right fun _ => exists_congr fun own => and_congr_left fun _ => ?_
    rw [List.mem_append, List.mem_singleton]
    exact ⟨.inl, fun mem => mem.resolve_right fun same => noLink same.symm⟩

/-- A file takes its name, and what had the temporary one is gone. -/
theorem file_received {other d : String} {content c : Bytes} {size : UInt64} {checksum : UInt32}
    (r : Reflects before entries held) (fresh : ∀ e, (Bytes.ofText other, e) ∉ entries) :
    arrive held (.file d other size checksum, content) name = some (.file c) ↔
      (name, .file c) ∈ entries ++ [(Bytes.ofText other, .file content)] ∧ Bytes.IsText name ∧
        ¬ Displaced (entries ++ [(Bytes.ofText other, .file content)]) name := by
  rw [arrive, List.mem_append, List.mem_singleton, displaced_concat, displaces_file]
  by_cases temporary : name = Bytes.ofText (Intake.temporaryName other)
  · rw [if_pos temporary]
    refine iff_of_false (Option.some_ne_none _).symm ?_
    rintro ⟨mem | same, _, stays⟩
    · exact stays (.inr ⟨⟨_, mem⟩, temporary⟩)
    · exact temporaryName_ne other (temporary.symm.trans (Prod.mk.inj same).1)
  rw [if_neg temporary]
  by_cases own : name = Bytes.ofText other
  · subst own
    rw [if_pos rfl]
    constructor
    · intro same
      cases same
      refine ⟨.inr rfl, Bytes.isText_ofText other, ?_⟩
      rintro (⟨e, later, sub, _⟩ | ⟨⟨e, mem⟩, _⟩)
      · exact fresh e (sub.subset (List.mem_cons_self ..))
      · exact fresh e mem
    · rintro ⟨mem | same, _⟩
      · exact absurd mem (fresh _)
      · rw [(Prod.mk.inj same).2]
  · rw [if_neg own, r.file]
    constructor
    · rintro ⟨mem, text, stays⟩
      exact ⟨.inl mem, text, fun gone => gone.elim stays fun late => temporary late.2⟩
    · rintro ⟨mem | same, text, stays⟩
      · exact ⟨mem, text, fun gone => stays (.inl gone)⟩
      · exact absurd (Prod.mk.inj same).1 own

theorem receive {other d : String} {content : Bytes} {size : UInt64} {checksum : UInt32}
    (r : Reflects before entries held) (plain : Intake.isPlainName other = true)
    (fresh : ∀ e, (Bytes.ofText other, e) ∉ entries) :
    Reflects before (entries ++ [(Bytes.ofText other, .file content)])
      (arrive held (.file d other size checksum, content)) := by
  obtain ⟨ordinary, notLink⟩ := ordinary_of_isPlainName plain
  have notLink' := (ordinary_temporaryName ordinary).2
  refine ⟨fun name c => r.file_received fresh, fun name target => ?_, fun name e => ?_⟩
  · have linked : (∃ own, (linkEntry, Entry.link own) ∈ entries ++
          [(Bytes.ofText other, .file content)] ∧ target = Bytes.ofText (sentLink before own)) ↔
        ∃ own, (linkEntry, .link own) ∈ entries ∧
          target = Bytes.ofText (sentLink before own) := by simp
    rw [linked, ← r.link, arrive]
    split
    · rename_i temporary
      refine iff_of_false (Option.some_ne_none _).symm fun there => ?_
      exact notLink' (temporary.symm.trans ((r.link name target).1 there).1)
    split
    · rename_i own
      refine iff_of_false (fun same => by cases same) fun there => ?_
      exact notLink (own.symm.trans ((r.link name target).1 there).1)
    · rfl
  · intro there
    rw [arrive] at there
    split at there
    · cases there
    split at there
    · cases there
      exact .inl ⟨content, rfl⟩
    · exact r.only name e there

/-- The link takes its place. -/
theorem link_arrives {own : Bytes} {d : String} (r : Reflects before entries held)
    (fresh : ∀ e, (linkEntry, e) ∉ entries) :
    Reflects before (entries ++ [(linkEntry, .link own)])
      (arrive held (.parentLink d (sentLink before own), [])) := by
  have still {name : Bytes} : Displaced (entries ++ [(linkEntry, .link own)]) name ↔
      Displaced entries name := by
    rw [displaced_concat]
    exact or_iff_left fun displaced => not_displaces_link displaced.2
  refine ⟨fun name c => ?_, fun name target => ?_, fun name e => ?_⟩
  · rw [still, arrive]
    split
    · rename_i same
      refine iff_of_false (fun same => by cases same) ?_
      rintro ⟨mem, _⟩
      rw [List.mem_append, List.mem_singleton, same] at mem
      obtain mem | same := mem
      · exact fresh _ mem
      · cases same
    · rw [r.file, List.mem_append, List.mem_singleton]
      refine and_congr_left fun _ => ⟨.inl, fun mem => mem.resolve_right ?_⟩
      intro same
      cases (Prod.mk.inj same).2
  · rw [arrive]
    split
    · rename_i same
      constructor
      · intro there
        cases there
        exact ⟨same, own, by simp, rfl⟩
      · rintro ⟨_, own', mem, rfl⟩
        rw [List.mem_append, List.mem_singleton] at mem
        obtain mem | same := mem
        · exact absurd mem (fresh _)
        · cases same
          rfl
    · rename_i away
      refine iff_of_false (fun there => ?_) fun h => away h.1
      exact away ((r.link name target).1 there).1
  · intro there
    rw [arrive] at there
    split at there
    · cases there
      exact .inr ⟨_, rfl⟩
    · exact r.only name e there

/-- What is held of a listing that was sent into an empty directory. -/
theorem of_parcels (once : (entries.map Prod.fst).Nodup)
    (acceptable : ∀ p ∈ entries.filterMap (parcelOf dump before), p.1.isAcceptable) :
    Reflects before entries
      ((entries.filterMap (parcelOf dump before)).foldl arrive fun _ => none) := by
  induction entries using List.reverseRecOn with
  | nil => exact nil
  | append_singleton entries x ih =>
      rw [List.filterMap_append] at acceptable ⊢
      rw [List.map_append, List.nodup_append] at once
      have r := ih once.1 fun p mem => acceptable p (List.mem_append_left _ mem)
      have fresh (e : Entry) : (x.1, e) ∉ entries := fun mem =>
        once.2.2 x.1 (List.mem_map.2 ⟨_, mem, rfl⟩) x.1 (by simp) rfl
      rw [List.foldl_append]
      cases hp : parcelOf dump before x with
      | none =>
          rw [List.filterMap_cons_none hp]
          exact r.skip hp
      | some p =>
          rw [List.filterMap_cons_some hp] at acceptable ⊢
          have accepted := acceptable p (List.mem_append_right _ (List.mem_cons_self ..))
          obtain ⟨name, content, rfl, rfl⟩ | ⟨own, rfl, rfl⟩ := parcelOf_eq_some_iff.1 hp
          · rw [List.filterMap_nil, List.foldl_cons, List.foldl_nil]
            exact r.receive accepted fresh
          · rw [List.filterMap_nil, List.foldl_cons, List.foldl_nil]
            exact r.link_arrives fresh

end Reflects

/-! ## Links that are accepted -/

theorem ascii_parentPath (d : Dump) : ∀ b ∈ Bytes.ofText d.parentPath, b.toNat < 128 := by
  intro b mem
  rw [Dump.parentPath, Bytes.ofText_append, List.mem_append] at mem
  obtain up | mem := mem
  · revert b
    decide +kernel
  · exact (Dump.mem_entryName mem).2

/-- A link that is accepted as it is shown is the link itself. -/
theorem ofText_display_of_checkLink {own : Bytes}
    (h : Intake.checkLink (Bytes.display own) = .ok ()) :
    Bytes.ofText (Bytes.display own) = own := by
  obtain ⟨d, same⟩ := parentPath_of_checkLink h
  refine Bytes.ofText_display ?_ ?_ <;> rw [same]
  · rw [Dump.parentPath]
    simp
  · exact ascii_parentPath d

/-! ## Delivery -/

/-- A directory that is a copy of a listing, but for displaced files; its link is the one to
the predecessor, or that of the listing if there is none. -/
structure Copied (before : Option Dump) (entries : List (Bytes × Entry)) (d : Disk)
    (l : Location) : Prop where
  directory : d.tree.get? l = some .directory
  file : ∀ name content, d.tree.get? (l ++ [name]) = some (.file content) ↔
    (name, .file content) ∈ entries ∧ Bytes.IsText name ∧ ¬ Displaced entries name
  link : ∀ name target, d.tree.get? (l ++ [name]) = some (.link target) ↔
    name = linkEntry ∧ ∃ own, (linkEntry, .link own) ∈ entries ∧
      target = (before.map fun b => Bytes.ofText b.parentPath).getD own
  only : ∀ m e, d.tree.get? (l ++ m) = some e → m = [] ∨
    ∃ name, m = [name] ∧ ((∃ content, e = .file content) ∨ ∃ target, e = .link target)

theorem Reflects.copied {held : Bytes → Option Entry} {d : Disk} {l : Location}
    (r : Reflects before entries held) (holds : Holds d l held)
    (directory : d.tree.get? l = some .directory)
    (shown : ∀ own, (linkEntry, .link own) ∈ entries →
      Intake.checkLink (sentLink before own) = .ok ()) : Copied before entries d l := by
  refine ⟨directory, fun name content => ?_, fun name target => ?_, fun m e there => ?_⟩
  · rw [holds.entry]
    exact r.file name content
  · rw [holds.entry, r.link]
    refine and_congr_right fun _ => exists_congr fun own => and_congr_right fun mem => ?_
    cases before with
    | some b => rfl
    | none =>
        have same : Bytes.ofText (sentLink none own) = own :=
          ofText_display_of_checkLink (shown own mem)
        rw [same]
        rfl
  · cases m with
    | nil => exact .inl rfl
    | cons name m =>
        cases m with
        | nil => exact .inr ⟨name, rfl, r.only name e ((holds.entry name).symm.trans there)⟩
        | cons b rest =>
            rw [holds.deeper] at there
            cases there

variable {auth serving : Auth} {source root : Path} {k : Location} {disk d₀ d : Disk}
  {stream : Inflow} {answer : Bytes}

/-- A dump that was sent into a root without it, and was taken: its directory there is a copy
of what was listed, and nothing else has changed. -/
theorem dump_delivery (listed : disk.list (dump.pathIn source) = .ok entries)
    (once : (entries.map Prod.fst).Nodup)
    (short : ∀ name content, (name, .file content) ∈ entries → content.length < UInt64.size)
    (found : d₀.find root = .ok (.present k .directory))
    (vacant : ∀ l, k ++ [dump.entryName] <+: l → d₀.tree.get? l = none)
    (sent : (outflow auth source disk dump before).result = .ok ())
    (flat : stream.flatten = (outflow auth source disk dump before).bytes)
    (served : serve serving root stream d₀ = (answer, d))
    (accepted : verdictOf dump answer = .ok ()) :
    Copied before entries d (k ++ [dump.entryName]) ∧
      d.tree.outside (k ++ [dump.entryName]) = d₀.tree.outside (k ++ [dump.entryName]) := by
  have one {own own' : Bytes} (mem : (linkEntry, .link own) ∈ entries)
      (mem' : (linkEntry, .link own') ∈ entries) : own' = own :=
    Entry.link.inj (Prod.mk.inj (List.inj_on_of_nodup_map once mem' mem rfl)).2
  obtain ⟨pointsTo, points⟩ : ∃ pointsTo, ∀ own, (linkEntry, .link own) ∈ entries →
      sentLink before own = pointsTo := by
    by_cases linked : ∃ own, (linkEntry, Entry.link own) ∈ entries
    · obtain ⟨own, mem⟩ := linked
      exact ⟨sentLink before own, fun own' mem' => by rw [one mem mem']⟩
    · exact ⟨"", fun own mem => absurd ⟨own, mem⟩ linked⟩
  have fits : ∀ p ∈ entries.filterMap (parcelOf dump before), Fits dump pointsTo p := by
    intro p mem
    obtain ⟨entry, mem, h⟩ := List.mem_filterMap.1 mem
    exact fits_parcelOf (fun content file => short entry.1 content (file ▸ mem))
      (fun own same => points own (same ▸ mem)) h
  have nothing (m : Location) : d₀.tree.get? (k ++ [dump.entryName] ++ m) = none :=
    vacant _ (List.prefix_append ..)
  have start : Within d₀ d₀ (k ++ [dump.entryName]) none none := by
    refine ⟨rfl, rfl, vacant _ List.prefix_rfl, nothing _, fun name target there => ?_⟩
    rw [nothing] at there
    cases there
  obtain ⟨within, acceptable, holds⟩ := receive_of_taken listed fits start
    (FileTree.rootsBeside_of_vacant found vacant) nofun sent flat served accepted
  refine ⟨(Reflects.of_parcels once acceptable).copied
    (holds _ ⟨fun name => nothing _, fun a b rest => nothing _⟩) within.place ?_, within.outside⟩
  intro own mem
  exact acceptable _ (List.mem_filterMap.2
    ⟨_, mem, parcelOf_eq_some_iff.2 (.inr ⟨own, rfl, rfl⟩)⟩)

def sampleRoot : Path := ⟨[Path.slash]⟩

def sampleDump : Dump := ⟨.full, 2, 0⟩

/-- A disk with a directory of the dump that has these entries. -/
def sampleImage (entries : List (Bytes × Entry)) : Disk :=
  .ofTree ⟨([sampleDump.entryName], .directory) ::
    entries.map fun x => ([sampleDump.entryName, x.1], x.2)⟩ []

/-- The answer of a receiver that has an empty root, and its disk, once the dump was sent. -/
def sampleDelivery (entries : List (Bytes × Entry)) (before : Option Dump) : Bytes × Disk :=
  serve none sampleRoot [(outflow none sampleRoot (sampleImage entries) sampleDump before).bytes]
    (.ofTree .empty [])

def sampleEntries : List (Bytes × Entry) :=
  [(linkEntry, .link (Bytes.ofText "../w0")), (Bytes.ofText "a", .file [0x31, 0x32])]

/-- A file, and a link that is turned to the predecessor. -/
theorem dump_delivery_sample :
    (sampleImage sampleEntries).list (sampleDump.pathIn sampleRoot) = .ok sampleEntries ∧
      (outflow none sampleRoot (sampleImage sampleEntries) sampleDump (some ⟨.pre, 1, 0⟩)).result =
        .ok () ∧
      verdictOf sampleDump (sampleDelivery sampleEntries (some ⟨.pre, 1, 0⟩)).1 = .ok () ∧
      Copied (some ⟨.pre, 1, 0⟩) sampleEntries (sampleDelivery sampleEntries (some ⟨.pre, 1, 0⟩)).2
        [sampleDump.entryName] := by
  have listed : (sampleImage sampleEntries).list (sampleDump.pathIn sampleRoot) =
      .ok sampleEntries := by decide +kernel
  have sent : (outflow none sampleRoot (sampleImage sampleEntries) sampleDump
      (some ⟨.pre, 1, 0⟩)).result = .ok () := by decide +kernel
  have accepted : verdictOf sampleDump (sampleDelivery sampleEntries (some ⟨.pre, 1, 0⟩)).1 =
      .ok () := by decide +kernel
  have found : (Disk.ofTree .empty []).find sampleRoot = .ok (.present [] .directory) := by
    decide +kernel
  have short : ∀ name content, (name, .file content) ∈ sampleEntries →
      content.length < UInt64.size := by
    simp [sampleEntries]
    decide
  have vacant : ∀ l, [] ++ [sampleDump.entryName] <+: l →
      (Disk.ofTree .empty []).tree.get? l = none := by
    rintro _ ⟨rest, rfl⟩
    rfl
  exact ⟨listed, sent, accepted, (dump_delivery listed (by decide +kernel) short found vacant sent
    (List.append_nil _) rfl accepted).1⟩

def sampleClash : List (Bytes × Entry) :=
  [(Bytes.ofText ".a.part", .file [0x31]), (Bytes.ofText "a", .file [0x32])]

/-- A file that is lost to the temporary name of the one behind it, in a dump that was taken. -/
theorem displaced_file :
    (sampleImage sampleClash).list (sampleDump.pathIn sampleRoot) = .ok sampleClash ∧
      (∀ x ∈ sampleClash, ∃ name, x.1 = Bytes.ofText name ∧ Intake.isPlainName name = true) ∧
      (outflow none sampleRoot (sampleImage sampleClash) sampleDump none).result = .ok () ∧
      verdictOf sampleDump (sampleDelivery sampleClash none).1 = .ok () ∧
      (sampleDelivery sampleClash none).2.tree.get?
        [sampleDump.entryName, Bytes.ofText ".a.part"] = none := by
  refine ⟨by decide +kernel, ?_, by decide +kernel, by decide +kernel, by decide +kernel⟩
  simp only [sampleClash, List.mem_cons, List.not_mem_nil, or_false, forall_eq_or_imp, forall_eq]
  exact ⟨⟨_, rfl, rfl⟩, _, rfl, rfl⟩

end LiveMigration.Transfer
