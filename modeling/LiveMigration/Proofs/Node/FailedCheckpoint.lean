import LiveMigration.Proofs.Disk.Operations
import LiveMigration.Proofs.Dump.Directory
import LiveMigration.Proofs.Node.Refusal

/-!
A checkpoint that the engine fails to take. An image of the same name was taken away before the
engine was asked, and nothing brings it back. So what becomes of the directories in the dump root
is decided by that name alone: all others are as before, and one of that name is lost.
-/

namespace LiveMigration.Node

variable {σ : Type} {settings : Settings} {rig : Rig σ} {w w' : Working σ} {d d' : Disk}
  {root : Path} {k : Location} {c : Dump}

/-- An engine that fails leaves the disk as it was. -/
def Rig.FailsCleanly (rig : Rig σ) : Prop :=
  ∀ call disk env e, (rig.engine call disk env).1 = .error e →
    (rig.engine call disk env).2.1 = disk

/-- All directories in a root are still there, with all that they held. -/
def KeepsDirectories (k : Location) (d d' : Disk) : Prop :=
  ∀ name, d.tree.get? (k ++ [name]) = some .directory → ∀ rest,
    d'.tree.get? (k ++ [name] ++ rest) = d.tree.get? (k ++ [name] ++ rest)

/-! ## Making room -/

/-- What may have happened to the disk when there is room for an image. -/
inductive MakesRoom (d : Disk) (image : Path) : Disk → Prop
  | free (absent : d.isThere image = false) : MakesRoom d image d
  | removed {d' : Disk} (h : d.removeAll image = .ok d') : MakesRoom d image d'

theorem Site.makesRoom {s s' : Site σ} {image : Path} (h : s.clearImage image = (.ok (), s')) :
    MakesRoom s.disk image s'.disk := by
  unfold clearImage at h
  split at h
  · split at h
    · cases h
    · rename_i removed
      cases h
      exact .removed removed
  · rename_i absent
    cases h
    exact .free (Bool.eq_false_iff.2 absent)

theorem MakesRoom.others (room : MakesRoom d (c.pathIn root) d') (leads : d.Leads root k)
    {name : Bytes} (other : name ≠ c.entryName) (rest : Location) :
    d'.tree.get? (k ++ [name] ++ rest) = d.tree.get? (k ++ [name] ++ rest) := by
  cases room with
  | free => rfl
  | removed h =>
      obtain ⟨-, same⟩ := Disk.removeAll_cases leads c.ordinary_entryName h
      exact FileTree.get?_of_outside same (FileTree.apart_of_ne other rest)

theorem directory_of_inspectEntry (leads : d.Leads root k)
    (h : d.inspectEntry (c.pathIn root) = .ok .directory) :
    d.tree.get? (k ++ [c.entryName]) = some .directory ∧ d.isThere (c.pathIn root) = true := by
  unfold Disk.inspectEntry at h
  split at h
  · rename_i found
    cases h
    obtain ⟨-, there⟩ := Disk.present_of_foundAt
      (Disk.foundAt_of_findEntry leads c.ordinary_entryName found)
    refine ⟨there, ?_⟩
    have short := FileTree.length_le_of_find found
    have name := c.length_entryName
    have plain : true = true → ∀ target,
        d.tree.get? (k ++ [c.entryName]) ≠ some (.link target) := by
      intro _ target
      rw [there]
      exact nofun
    obtain same | ⟨-, long⟩ := leads.find_join c.ordinary_entryName true plain
    · rw [FileTree.foundAt, there] at same
      have same : d.find (c.pathIn root) = .ok (.present (k ++ [c.entryName]) .directory) := same
      rw [Disk.isThere, Disk.inspect, same]
      rfl
    · obtain long | long := long
      · exact absurd short (Nat.not_le.2 long)
      · have : FileTree.maxName < 21 := Nat.lt_of_lt_of_le long name
        exact absurd this (by decide)
  · cases h
  · cases h

theorem MakesRoom.lost (room : MakesRoom d (c.pathIn root) d') (leads : d.Leads root k)
    (h : d.inspectEntry (c.pathIn root) = .ok .directory) (rest : Location) :
    d'.tree.get? (k ++ [c.entryName] ++ rest) = none := by
  obtain ⟨there, found⟩ := directory_of_inspectEntry leads h
  cases room with
  | free absent =>
      rw [absent] at found
      cases found
  | removed h => exact Disk.removeAll_directory leads c.ordinary_entryName h there rest

/-- A directory that is not seen, since its path is too long, is left alone. -/
theorem MakesRoom.unseen (room : MakesRoom d (c.pathIn root) d') (leads : d.Leads root k)
    (h : d.inspectEntry (c.pathIn root) ≠ .ok .directory)
    (there : d.tree.get? (k ++ [c.entryName]) = some .directory) : d' = d := by
  cases room with
  | free => rfl
  | removed removed =>
      have found (l : Location) (e : Entry)
          (found : d.findEntry (c.pathIn root) = .ok (.present l e)) : False := by
        obtain ⟨-, same⟩ := Disk.present_of_foundAt
          (Disk.foundAt_of_findEntry leads c.ordinary_entryName found)
        cases there.symm.trans same
        exact h (by rw [Disk.inspectEntry, found])
      unfold Disk.removeAll at removed
      split at removed
      · rename_i inspected
        exact (found _ _ inspected).elim
      · rename_i inspected
        exact (found _ _ inspected).elim
      all_goals cases removed

theorem MakesRoom.keepsDirectories_iff (room : MakesRoom d (c.pathIn root) d')
    (leads : d.Leads root k) :
    KeepsDirectories k d d' ↔ d.inspectEntry (c.pathIn root) ≠ .ok .directory := by
  constructor
  · intro keeps seen
    obtain ⟨there, -⟩ := directory_of_inspectEntry leads seen
    have kept := keeps c.entryName there []
    rw [room.lost leads seen, List.append_nil, there] at kept
    cases kept
  · intro unseen name there rest
    by_cases same : name = c.entryName
    · subst same
      rw [room.unseen leads unseen there]
    · exact room.others leads same rest

/-! ## The failure -/

theorem Rig.FailsCleanly.recorded (clean : rig.FailsCleanly) : rig.recorded.FailsCleanly :=
  fun call disk env e failed => clean call disk env.state e failed

theorem Site.disk_of_takeDump {id : ContainerId} {plan : Plan} {leaveRunning : Bool}
    {s s' : Site σ} {e : EngineError} (clean : rig.FailsCleanly)
    (h : s.takeDump settings rig id plan leaveRunning = (.error e, s')) : s'.disk = s.disk := by
  obtain ⟨failed, rfl⟩ := Prod.mk.inj h
  exact clean _ _ _ e failed

theorem Site.checkpoint_failed {s s' : Site σ} {e : EngineError} (clean : rig.FailsCleanly)
    (h : s.checkpoint settings rig = (.error (.error (.engine e)), s')) :
    ∃ c, (Cadence.checkpointBase s.register.chain s.register.closed).checkpoint? = some c ∧
      MakesRoom s.disk (c.pathIn settings.dumpPath) s'.disk := by
  unfold checkpoint at h
  split at h
  · cases h
  split at h
  · cases h
  split at h
  · cases h
  rename_i c named
  split at h
  · rename_i cleared
    cases h
    unfold clearImage at cleared
    split at cleared
    · split at cleared <;> cases cleared
    · cases cleared
  · rename_i cleared
    split at h
    · rename_i taken
      cases h
      refine ⟨c, named, ?_⟩
      rw [disk_of_takeDump clean taken]
      exact makesRoom cleared
    · cases h

/-- A checkpoint that fails in the engine has changed nothing of the node, and nothing in the dump
root but what has the name of the checkpoint. A directory that had this name before, such as that
of an earlier checkpoint, is gone with all it held; so the directories of the root are all kept if
and only if there was none. -/
theorem failed_checkpoint {e : EngineError} (clean : rig.FailsCleanly)
    (found : w.site.disk.find settings.dumpPath = .ok (.present k .directory))
    (failed : (Event.command .checkpoint).perform settings rig w =
      some (.outcome (.error (.engine e)), w')) :
    ∃ c, (Cadence.checkpointBase w.chain w.closed).checkpoint? = some c ∧
      w'.site.node = w.site.node ∧
      (∀ name rest, name ≠ c.entryName → w'.site.disk.tree.get? (k ++ [name] ++ rest) =
        w.site.disk.tree.get? (k ++ [name] ++ rest)) ∧
      (w.site.disk.inspectEntry (c.pathIn settings.dumpPath) = .ok .directory →
        ∀ rest, w'.site.disk.tree.get? (k ++ [c.entryName] ++ rest) = none) ∧
      (KeepsDirectories k w.site.disk w'.site.disk ↔
        w.site.disk.inspectEntry (c.pathIn settings.dumpPath) ≠ .ok .directory) := by
  have leads : w.site.disk.Leads settings.dumpPath k := FileTree.leads_of_find found
  obtain ⟨-, refused⟩ := refuses_of_fails (.command _) failed
  obtain ⟨c, named, room⟩ : ∃ c,
      (Cadence.checkpointBase w.chain w.closed).checkpoint? = some c ∧
        MakesRoom w.site.disk (c.pathIn settings.dumpPath) w'.site.disk := by
    unfold Event.perform at failed
    dsimp only at failed
    split at failed <;> rename_i executed <;> cases failed
    obtain ⟨-, asked⟩ | ⟨_, ⟨⟩, -⟩ := Site.execute_failed executed
    exact Site.checkpoint_failed clean.recorded asked
  exact ⟨c, named, refused.leaves_node, fun name rest other => room.others leads other rest,
    room.lost leads, room.keepsDirectories_iff leads⟩

/-- An engine that takes one dump and then fails, as one does that has no room left. -/
def Rig.oneDump : Rig Bool where
  engine := fun call disk used =>
    match call, used with
    | .dump _ image _ _, false =>
      (.ok (), disk.plant (image.joinText "pages-1.img") (.file [0x31]), true)
    | .dump id _ _ _, true => (.error (.commandFailed .dump id "No space left"), disk, true)
    | _, _ => (.ok (), disk, used)
  launched := fun _ s => s
  send := fun _ _ _ _ s => (.ok (), s)
  network := fun _ _ s => (.late, s)

theorem Rig.failsCleanly_oneDump : Rig.oneDump.FailsCleanly := by
  intro call disk used e failed
  cases call <;> cases used <;> first | rfl | cases failed

/-- A running node of which one checkpoint was taken. -/
def sampleCheckpointed : Working Bool :=
  [Event.run sampleContainer (.ofText "/b"), .command .checkpoint].foldl
    (fun w e => ((e.perform .sample .oneDump w).map Prod.snd).getD w) (.started sampleDisk false)

def sampleUncheckpointed : Working Bool :=
  (((Event.command .checkpoint).perform .sample .oneDump sampleCheckpointed).map
    Prod.snd).getD sampleCheckpointed

theorem failed_checkpoint_sample :
    (Event.command .checkpoint).perform .sample .oneDump sampleCheckpointed =
      some (.outcome (.error (.engine (.commandFailed .dump sampleContainer "No space left"))),
        sampleUncheckpointed) ∧
    ∃ c : Dump, c.name = "c1" ∧
      (∀ rest, sampleUncheckpointed.site.disk.tree.get? ([] ++ [c.entryName] ++ rest) = none) ∧
      ∀ rest, sampleUncheckpointed.site.disk.tree.get? ([] ++ [[0x64, 0x31]] ++ rest) =
        sampleCheckpointed.site.disk.tree.get? ([] ++ [[0x64, 0x31]] ++ rest) := by
  have failed : (Event.command .checkpoint).perform .sample .oneDump sampleCheckpointed =
      some (.outcome (.error (.engine (.commandFailed .dump sampleContainer "No space left"))),
        sampleUncheckpointed) := by
    rfl
  have found : sampleCheckpointed.site.disk.find Settings.sample.dumpPath =
      .ok (.present [] .directory) := by rfl
  obtain ⟨c, named, -, others, lost, -⟩ := failed_checkpoint Rig.failsCleanly_oneDump found failed
  cases named
  exact ⟨failed, _, by rfl, lost (by decide +kernel), fun rest => others _ rest (by decide +kernel)⟩

/-- The image of a checkpoint is there, and after one that fails it is not. -/
theorem failed_checkpoint_loses_image : Rig.oneDump.FailsCleanly ∧ ∃ w w' : Working Bool,
    Reached .sample .oneDump w ∧ w.status = .running ∧
    (Event.command .checkpoint).perform .sample .oneDump w =
      some (.outcome (.error (.engine (.commandFailed .dump sampleContainer "No space left"))), w') ∧
    w.site.disk.find Settings.sample.dumpPath = .ok (.present [] .directory) ∧
    ¬ KeepsDirectories [] w.site.disk w'.site.disk := by
  have reached := (reached_started .sample .oneDump sampleDisk false).after
    [.run sampleContainer (.ofText "/b"), .command .checkpoint]
  refine ⟨Rig.failsCleanly_oneDump, sampleCheckpointed, sampleUncheckpointed, reached, rfl, rfl,
    rfl, fun keeps => ?_⟩
  have there : sampleCheckpointed.site.disk.tree.get? ([] ++ [[0x63, 0x31]]) = some .directory := by
    decide +kernel
  have kept := keeps [0x63, 0x31] there []
  revert kept
  decide +kernel

end LiveMigration.Node
