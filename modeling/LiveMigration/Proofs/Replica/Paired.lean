import LiveMigration.Proofs.Node.Course
import LiveMigration.Proofs.Replica.Following
import LiveMigration.Proofs.Transfer.Receipt

/-!
A node paired with one replica, over a network that lets certain transfers of dumps without
files through and no others. Such a pair does all that is relied on of an engine and of a
replica, whichever transfers these are.
-/

namespace LiveMigration

open Lineage Transfer

def Disk.withImage (disk : Disk) (l : Location) (parent : Option String) : Disk :=
  match parent with
  | none => disk.change (.put l .directory)
  | some p => (disk.change (.put l .directory)).change
      (.put (l ++ [linkEntry]) (.link (Bytes.ofText p)))

namespace Node

/-- An engine that takes no image of a name twice. -/
def imaging (c : Engine.Call) (disk s : Disk) : Except EngineError Unit × Disk × Disk :=
  match c.image? with
  | some (image, parent) =>
    let l := [image.bytes.drop 1]
    if disk.tree.get? l = none ∧ disk.tree.children l = [] then
      (.ok (), disk.withImage l parent, s)
    else (.error .binaryNotFound, disk, s)
  | none => (.ok (), disk, s)

/-- What is sent, and the disk of the replica before and after. -/
structure Passage where
  bytes : Bytes
  before : Disk
  after : Disk

def favour : Bytes := (Verdict.mk true none).encode

def through (passages : List Passage) : Wire Disk := fun _ bytes s =>
  match passages.find? fun p => p.bytes = bytes ∧ p.before = s with
  | some p => (.ok favour, p.after)
  | none => (.error (.connecting, .os .connectionRefused), s)

def Settings.every (frequency : UInt64) : Settings := { Settings.sample with frequency }

def Rig.paired (passages : List Passage) : Rig Disk where
  engine := imaging
  launched := fun _ s => s
  send := sendDump (through passages) none Settings.sample.dumpPath
  network := fun _ _ s => (.late, s)

section Images

variable {disk : Disk} {parent : Option String}

theorem outside_withImage (l : Location) (parent : Option String) (disk : Disk) :
    (disk.withImage l parent).cwd = disk.cwd ∧
      (disk.withImage l parent).tree.outside l = disk.tree.outside l := by
  have first := FileTree.outside_put (t := disk.tree) (l := l) .directory List.prefix_rfl
  cases parent with
  | none => exact ⟨rfl, first⟩
  | some p => exact ⟨rfl, (FileTree.outside_put _ (List.prefix_append ..)).trans first⟩

theorem image_withImage {name : Bytes} (bare : disk.tree.children [name] = []) :
    Image (disk.withImage [name] parent) [name] parent.isSome := by
  have first : (disk.tree.put [name] .directory).get? [name] = some .directory := by
    rw [FileTree.get?_put _ _ _ _ (List.cons_ne_nil _ _), if_pos rfl]
  have without (entry : Bytes) (e : Entry) :
      ([name] ++ [entry], e) ∉ (disk.tree.put [name] .directory).entries := by
    intro mem
    obtain mem | ⟨same, _⟩ := FileTree.mem_of_mem_put mem
    · rw [← FileTree.mem_children, bare] at mem
      cases mem
    · simp at same
  cases parent with
  | none =>
      refine ⟨first, ?_, ?_⟩
      · exact fun entry content mem => absurd (FileTree.mem_children.1 mem) (without _ _)
      · exact ⟨fun ⟨target, mem⟩ => absurd (FileTree.mem_children.1 mem) (without _ _), nofun⟩
  | some p =>
      refine ⟨?_, ?_, fun _ => rfl, fun _ => ⟨Bytes.ofText p, ?_⟩⟩
      · exact (FileTree.get?_put _ _ _ _ (by simp)).trans ((if_neg (by simp)).trans first)
      · intro entry content mem
        obtain mem | ⟨_, same⟩ := FileTree.mem_of_mem_put (FileTree.mem_children.1 mem)
        · exact absurd mem (without _ _)
        · cases same
      · refine FileTree.mem_children.2 (FileTree.mem_of_get? ?_ (by simp))
        exact (FileTree.get?_put _ _ _ _ (by simp)).trans (if_pos rfl)

theorem paired_takesImages (frequency : UInt64) (passages : List Passage) :
    TakesImages (.every frequency) (.paired passages) [] := by
  have place (d : Dump) :
      (d.pathIn (Settings.every frequency).dumpPath).bytes.drop 1 = d.entryName := by
    rw [show d.pathIn (Settings.every frequency).dumpPath =
      (⟨[Path.slash]⟩ : Path).join d.entryName from rfl,
      Path.bytes_join (List.cons_ne_nil _ _) d.ordinary_entryName]
    rfl
  have asked {c : Engine.Call} {d : Dump} {parent : Option String} (disk s : Disk)
      (h : c.image? = some (d.pathIn (Settings.every frequency).dumpPath, parent)) :
      (Rig.paired passages).engine c disk s =
        if disk.tree.get? [d.entryName] = none ∧ disk.tree.children [d.entryName] = [] then
          (.ok (), disk.withImage [d.entryName] parent, s)
        else (.error .binaryNotFound, disk, s) := by
    have opened : (Rig.paired passages).engine c disk s = imaging c disk s := rfl
    rw [opened, imaging, h]
    dsimp only
    rw [place]
  refine ⟨fun _ _ _ => rfl, ?_, ?_⟩
  · intro c d parent disk s h _
    rw [asked disk s h]
    split
    · exact outside_withImage _ parent disk
    · exact ⟨rfl, rfl⟩
  · intro c d parent disk s h _ ok
    rw [asked disk s h] at ok ⊢
    split at ok
    · rename_i free
      rw [if_pos free]
      exact image_withImage free.2
    · cases ok

end Images

section Transfers

variable {auth : Auth} {root : Path} {bytes rest : Bytes} {name target : String}
  {before between after : Disk}

/-- All of a dump that has no files. -/
inductive Whole : Bytes → Prop
  | done {bytes rest : Bytes} {name : String}
      (read : readHeader none [bytes] = .ok (.done name, [rest])) : Whole bytes
  | link {bytes rest : Bytes} {name target : String}
      (read : readHeader none [bytes] = .ok (.parentLink name target, [rest]))
      (whole : Whole rest) : Whole bytes

theorem serve_of_done (read : readHeader auth [bytes] = .ok (.done name, [rest]))
    (applied : Intake.apply root ⟨before, [rest]⟩ (.done name) =
      (.ok (some name), ⟨after, [rest]⟩)) : serve auth root [bytes] before = (favour, after) := by
  have received : Intake.receive auth root ⟨before, [bytes]⟩ = (.ok name, ⟨after, [rest]⟩) := by
    rw [receive_of_header (t := ⟨before, [bytes]⟩) read, applied]
  unfold serve
  rw [received]
  rfl

theorem serve_of_link (read : readHeader auth [bytes] = .ok (.parentLink name target, [rest]))
    (applied : Intake.apply root ⟨before, [rest]⟩ (.parentLink name target) =
      (.ok none, ⟨between, [rest]⟩)) :
    serve auth root [bytes] before = serve auth root [rest] between := by
  have received : Intake.receive auth root ⟨before, [bytes]⟩ =
      Intake.receive auth root ⟨between, [rest]⟩ := by
    rw [receive_of_header (t := ⟨before, [bytes]⟩) read, applied]
  unfold serve
  rw [received]

/-- The first header that is read is the first that was written. -/
theorem header_of_writeAll {p : Header × Bytes} {ps : List (Header × Bytes)} {header : Header}
    (read : readHeader none [(writeAll none (p :: ps)).bytes] = .ok (header, [rest])) :
    header = p.1 ∧ rest = p.2 ++ (writeAll none ps).bytes ∧
      (writeAll none (p :: ps)).result = (writeAll none ps).result := by
  obtain ⟨first, content⟩ := p
  rw [writeAll] at read ⊢
  cases written : writeHeader none first with
  | error e =>
      rw [written] at read
      cases read
  | ok frame =>
      rw [written] at read
      have flat : [frame ++ content ++ (writeAll none ps).bytes].flatten =
          frame ++ (content ++ (writeAll none ps).bytes) := by
        rw [List.flatten_singleton, List.append_assoc]
      obtain ⟨same, behind⟩ := readHeader_writeHeader written flat read
      rw [List.flatten_singleton] at behind
      exact ⟨same, behind, rfl⟩

theorem parcelOf_ne_done {dump : Dump} {base : Option Dump} {entry : Bytes × Entry}
    {p : Header × Bytes} (h : parcelOf dump base entry = some p) :
    (∀ name, p.1 ≠ .done name) ∧ ∀ name target, p.1 = .parentLink name target → p.2 = [] := by
  obtain ⟨_, _, _, rfl⟩ | ⟨_, _, rfl⟩ := parcelOf_eq_some_iff.1 h
  · exact ⟨nofun, nofun⟩
  · exact ⟨nofun, fun _ _ _ => rfl⟩

theorem Whole.sent (whole : Whole bytes) {ps : List (Header × Bytes)}
    (inner : ∀ p ∈ ps, (∀ name, p.1 ≠ .done name) ∧
      ∀ name target, p.1 = .parentLink name target → p.2 = [])
    (same : (writeAll none (ps ++ [(.done name, [])])).bytes = bytes) :
    (writeAll none (ps ++ [(.done name, [])])).result = .ok () := by
  induction whole generalizing ps with
  | done read =>
      subst same
      cases ps with
      | nil => exact (header_of_writeAll read).2.2
      | cons p ps =>
          obtain ⟨same, _⟩ := header_of_writeAll read
          exact absurd same.symm ((inner p (List.mem_cons_self ..)).1 _)
  | link read _ ih =>
      subst same
      cases ps with
      | nil =>
          obtain ⟨same, _⟩ := header_of_writeAll read
          cases same
      | cons p ps =>
          obtain ⟨same, behind, result⟩ := header_of_writeAll read
          rw [(inner p (List.mem_cons_self ..)).2 _ _ same.symm] at behind
          refine result.trans (ih (fun q hq => inner q (List.mem_cons_of_mem p hq)) ?_)
          exact behind.symm

/-- A dump that arrives as a whole was sent as a whole. -/
theorem Whole.outflow {source : Path} {disk : Disk} {dump : Dump} {base : Option Dump}
    (whole : Whole (outflow none source disk dump base).bytes) :
    (outflow none source disk dump base).result = .ok () := by
  unfold Transfer.outflow at whole ⊢
  cases listed : disk.list (dump.pathIn source) with
  | error fault =>
      rw [listed] at whole
      cases whole with
      | done read => cases read
      | link read => cases read
  | ok entries =>
      rw [listed] at whole
      refine whole.sent ?_ rfl
      intro p mem
      obtain ⟨entry, _, h⟩ := List.mem_filterMap.1 mem
      exact parcelOf_ne_done h

theorem through_eq {passages : List Passage} {address : String} {s s' : Disk} {answer : Bytes}
    (h : through passages address bytes s = (.ok answer, s')) :
    answer = favour ∧ ⟨bytes, s, s'⟩ ∈ passages := by
  unfold through at h
  split at h
  · rename_i p found
    have same := List.find?_some found
    obtain ⟨rfl, rfl⟩ := of_decide_eq_true same
    cases h
    exact ⟨rfl, List.mem_of_find?_eq_some found⟩
  · cases h

theorem lost_of_through {passages : List Passage} {address : String} {s s' : Disk}
    {fault : Transfer.Step × Fault} (h : through passages address bytes s = (.error fault, s')) :
    s' = s := by
  unfold through at h
  split at h
  · cases h
  · cases h
    rfl

/-- A replica that takes what the network lets through listens to all. -/
theorem paired_listens (frequency : UInt64) {passages : List Passage}
    (served : ∀ p ∈ passages,
      Whole p.bytes ∧ serve none root [p.bytes] p.before = (favour, p.after)) :
    Listens (.every frequency) (.paired passages) (through passages) none none (fun _ => True)
      (fun s => s) root := by
  refine { engine := ?_, launched := fun _ _ => rfl, network := fun _ _ _ => rfl,
           others := fun _ _ _ _ _ other => absurd trivial other, lost := ?_, send := rfl,
           serves := ?_ }
  · intro c disk s
    show (imaging c disk s).2.2 = s
    unfold imaging
    split
    · dsimp only
      split <;> rfl
    · rfl
  · intro disk t dump base s s' e sent
    have sent : sendDump (through passages) none Settings.sample.dumpPath disk t dump base s =
      (.error e, s') := sent
    unfold sendDump at sent
    dsimp only at sent
    split at sent
    · rename_i wired
      cases sent
      exact lost_of_through wired
    · rename_i answer s₁ wired
      obtain ⟨rfl, passed⟩ := through_eq wired
      rw [(served _ passed).1.outflow] at sent
      cases sent
  · intro t dump bytes s answer s' _ wired _
    obtain ⟨rfl, passed⟩ := through_eq wired
    exact ⟨[bytes], List.flatten_singleton, (served _ passed).2⟩

end Transfers

end Node

end LiveMigration
