import LiveMigration.Proofs.Node.Deeds
import LiveMigration.Proofs.Replica.Recovery

/-!
What a replica needs of the world around a node. The engine leaves a proper image behind
every dump it takes; whatever the node does leaves the replica alone, a failed transfer
included; and a transfer to the replica that is reported as successful has been taken there.
-/

namespace LiveMigration

open Lineage Transfer

def Engine.Call.image? : Engine.Call → Option (Path × Option String)
  | .preDump _ image parent | .dump _ image parent _ => some (image, parent)
  | .kill _ => none

namespace Node

variable {σ : Type}

/-- What is relied on of the engine: a dump writes to its own image alone, and if it succeeds
the image is there, with a link to a parent if and only if it was given one. -/
structure TakesImages (settings : Settings) (rig : Rig σ) (R : Location) : Prop where
  kill : ∀ id disk s, (rig.engine (.kill id) disk s).2.1 = disk
  writes : ∀ c (d : Dump) parent disk s, c.image? = some (d.pathIn settings.dumpPath, parent) →
    disk.tree.Roots disk.cwd settings.dumpPath R →
    (rig.engine c disk s).2.1.cwd = disk.cwd ∧
      (rig.engine c disk s).2.1.tree.outside (R ++ [d.entryName]) =
        disk.tree.outside (R ++ [d.entryName])
  makes : ∀ c (d : Dump) parent disk s, c.image? = some (d.pathIn settings.dumpPath, parent) →
    disk.tree.Roots disk.cwd settings.dumpPath R → (rig.engine c disk s).1 = .ok () →
    Image (rig.engine c disk s).2.1 (R ++ [d.entryName]) parent.isSome

/-- What leaves the disk of the replicas of some keys alone. -/
structure Aside (rig : Rig σ) (mine : String → Prop) (replica : σ → Disk) : Prop where
  engine : ∀ c disk s, replica (rig.engine c disk s).2.2 = replica s
  launched : ∀ l s, replica (rig.launched l s) = replica s
  network : ∀ address line s, replica (rig.network address line s).2 = replica s
  others : ∀ disk (t : Target) d before s, ¬ mine t.key →
    replica (rig.send disk t d before s).2 = replica s
  lost : ∀ disk t d before s s' e, rig.send disk t d before s = (.error e, s') →
    replica s' = replica s

/-- A replica that listens under some keys: a dump that it takes it takes as it was sent. -/
structure Listens (settings : Settings) (rig : Rig σ) (wire : Wire σ) (auth serving : Auth)
    (mine : String → Prop) (replica : σ → Disk) (root : Path) : Prop
    extends Aside rig mine replica where
  send : rig.send = sendDump wire auth settings.dumpPath
  serves : ∀ (t : Target) (d : Dump) bytes s answer s', mine t.key →
    wire t.fileAddress bytes s = (.ok answer, s') → verdictOf d answer = .ok () →
    ∃ stream, stream.flatten = bytes ∧
      serve serving root stream (replica s) = (answer, replica s')

/-- What a successful transfer does to such a replica. -/
structure Follows (settings : Settings) (rig : Rig σ) (mine : String → Prop)
    (replica : σ → Disk) (root : Path) (R : Location) : Prop extends Aside rig mine replica where
  arrives : ∀ {disk : Disk} {t : Target} {d : Dump} {before : Option Dump} {s s' : σ}
    {k : Location} {place link : Option Entry}, mine t.key →
    rig.send disk t d before s = (.ok (), s') → disk.Leads settings.dumpPath R →
    Image disk (R ++ [d.entryName]) before.isSome →
    Within (replica s) (replica s) (k ++ [d.entryName]) place link →
    (replica s).tree.Roots (replica s).cwd root k → (∀ e, place = some e → e = .directory) →
    Within (replica s) (replica s') (k ++ [d.entryName]) (some .directory)
      (if before.isSome then linkTo before else link)

variable {settings : Settings} {rig : Rig σ} {wire : Wire σ} {auth serving : Auth}
  {mine : String → Prop} {replica : σ → Disk} {root : Path} {R : Location}

theorem Listens.follows (h : Listens settings rig wire auth serving mine replica root) :
    Follows settings rig mine replica root R := by
  refine ⟨h.toAside, ?_⟩
  intro disk t d before s s' k place link listed sent leads image w roots sound
  rw [h.send] at sent
  unfold sendDump at sent
  dsimp only at sent
  split at sent
  · cases sent
  rename_i answer s₁ wired
  split at sent
  · cases sent
  rename_i whole
  obtain ⟨accepted, rfl⟩ := Prod.mk.inj sent
  obtain ⟨stream, flat, served⟩ := h.serves t d _ s answer _ listed wired accepted
  exact delivered leads image w roots sound whole flat served accepted

theorem send_recorded {disk : Disk} {t : Target} {d : Dump} {before : Option Dump}
    {r r' : Recorded σ} {result : Except TransferError Unit}
    (h : rig.recorded.send disk t d before r = (result, r')) :
    rig.send disk t d before r.state = (result, r'.state) := by
  have first : (rig.send disk t d before r.state).1 = result := congrArg Prod.fst h
  have second : (rig.send disk t d before r.state).2 = r'.state :=
    congrArg (fun p => p.2.state) h
  exact Prod.ext first second

theorem Aside.recorded (h : Aside rig mine replica) :
    Aside rig.recorded mine fun r => replica r.state :=
  ⟨fun c disk r => h.engine c disk r.state, fun l r => h.launched l r.state,
    fun address line r => h.network address line r.state,
    fun disk t d before r other => h.others disk t d before r.state other,
    fun disk t d before r _ e sent => h.lost disk t d before r.state _ e (send_recorded sent)⟩

theorem Follows.recorded (h : Follows settings rig mine replica root R) :
    Follows settings rig.recorded mine (fun r => replica r.state) root R :=
  ⟨h.toAside.recorded, fun listed sent => h.arrives listed (send_recorded sent)⟩

theorem TakesImages.recorded (h : TakesImages settings rig R) :
    TakesImages settings rig.recorded R :=
  ⟨fun id disk r => h.kill id disk r.state,
    fun c d parent disk r => h.writes c d parent disk r.state,
    fun c d parent disk r => h.makes c d parent disk r.state⟩

end Node

end LiveMigration
