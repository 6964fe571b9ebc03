import LiveMigration.Proofs.Replica.Abreast
import LiveMigration.Proofs.Replica.Paired

/-!
Replication and recovery together. Whatever becomes of the transfers to a replica, and
whenever it joins, is removed and joins again, the full dump that is recovered from it leads
back through exactly the chain which that dump closed.
-/

namespace LiveMigration.Node

open Transfer

variable {σ : Type} {settings : Settings} {rig : Rig σ} {mine : String → Prop}
  {replica : σ → Disk} {root : Path} {R k : Location} {plans plans' : List Plan}

def Site.Shows (s : Site σ) (c : Chain) : Prop :=
  s.register.chain = c ∨ s.register.closed = some c

/-- The chains of a course that end in a dump of some name. -/
def EndsIn (ms : List (Moment σ)) (name : String) (c : Chain) : Prop :=
  ∃ m ∈ ms, m.after.site.Shows c ∧ c.latest?.map Dump.name = some name

/-- Others may write to a disk as long as they leave alone what is in the dump root. -/
structure Spares (settings : Settings) (R : Location) (d d' : Disk) : Prop where
  roots : d'.tree.Roots d'.cwd settings.dumpPath R
  images : ∀ name, d.tree.get? (R ++ [name]) = some .directory →
    d'.tree.get? (R ++ [name]) = some .directory ∧
      d'.tree.children (R ++ [name]) = d.tree.children (R ++ [name])

/-- A step of a node that may have taken dumps; a full one is the last of its chain. -/
structure Onward (settings : Settings) (mine : String → Prop) (replica : σ → Disk)
    (root : Path) (R k : Location) (plans plans' : List Plan) (s : Site σ) : Prop where
  abreast : Abreast settings mine replica root R k plans' s
  grown : plans ⊆ plans'
  closing : ∀ p ∈ plans', p ∈ plans ∨
    (p.dump.isFull = true → ∃ c, s.Shows c ∧ c.latest? = some p.dump)

theorem Onward.still {s : Site σ} (h : Abreast settings mine replica root R k plans s) :
    Onward settings mine replica root R k plans plans s :=
  ⟨h, fun _ mem => mem, fun _ mem => .inl mem⟩

/-- A pre-dump closes no chain. -/
theorem mem_or_closing {pre p : Plan} {closes : Prop} (kind : pre.dump.kind = .pre)
    (mem : p ∈ plans ++ [pre]) : p ∈ plans ∨ (p.dump.isFull = true → closes) := by
  rcases List.mem_append.1 mem with mem | mem
  · exact .inl mem
  · rw [List.mem_singleton.1 mem]
    refine .inr fun full => ?_
    unfold Dump.isFull at full
    rw [kind] at full
    cases full

section Steps

variable {s s' : Site σ} (engine : TakesImages settings rig R)
  (follows : Follows settings rig mine replica root R)

include engine follows

theorem Abreast.ticks (h : Abreast settings mine replica root R k plans s) {plan : Plan}
    (ticks : Ticks settings rig plan s s') :
    Onward settings mine replica root R k plans (plans ++ [plan]) s' := by
  obtain ⟨regular, base, next⟩ := Cadence.next?_eq_some ticks.planned
  obtain ⟨id, taken, synced, _, takes, done, rfl⟩ := ticks.steps
  have latest : synced.register.chain.latest? = some plan.dump := by
    rw [Chain.latest?_eq, done.kept.chain, takes.dumps_eq, List.getLast?_concat]
  have after := (h.takes engine follows base regular next takes).chores engine follows done
  refine ⟨after.closeBehind latest, List.subset_append_left .., ?_⟩
  intro p mem
  rcases List.mem_append.1 mem with mem | mem
  · exact .inl mem
  · rw [List.mem_singleton.1 mem]
    refine .inr fun full => ⟨synced.register.chain, .inr ?_, latest⟩
    unfold Node.closeBehind
    rw [if_pos full]
    rfl

theorem Abreast.finalDumps (h : Abreast settings mine replica root R k plans s)
    {id : ContainerId} {pre : Plan} {full : Dump}
    (final : FinalDumps settings rig id pre full s s') :
    Abreast settings mine replica root R k (plans ++ [pre] ++ [⟨full, some pre.dump⟩]) s' ∧
      pre.dump.kind = .pre ∧ s'.register.chain.latest? = some full := by
  obtain ⟨kind, base, next⟩ := Cadence.finalPre?_eq_some final.planned
  obtain ⟨kind', next', _⟩ := Dump.nextFull?_eq_some final.follows
  obtain ⟨between, first, second⟩ := final.steps
  have latest : between.register.chain.latest? = some pre.dump := by
    rw [Chain.latest?_eq, first.dumps_eq, List.getLast?_concat]
  have after := h.takes engine follows base (by rw [kind]; nofun) next first
  refine ⟨after.takes engine follows latest.symm (by rw [kind']; nofun) ?_ second, kind, ?_⟩
  · rw [Site.nextSequence, Cadence.lastSequence_eq latest]
    exact next'
  · rw [Chain.latest?_eq, second.dumps_eq, List.getLast?_concat]

theorem Abreast.finished (h : Abreast settings mine replica root R k plans s)
    {id : ContainerId} {pre : Plan} {full : Dump} {taken : Site σ}
    (final : FinalDumps settings rig id pre full s taken) (done : Chores settings rig taken s') :
    Onward settings mine replica root R k plans (plans ++ [pre] ++ [⟨full, some pre.dump⟩]) s' := by
  obtain ⟨after, kind, latest⟩ := h.finalDumps engine follows final
  have latest' : s'.register.chain.latest? = some full := by
    rw [Chain.latest?_eq, done.kept.chain, ← Chain.latest?_eq]
    exact latest
  refine ⟨after.chores engine follows done, ?_, ?_⟩
  · exact fun p mem => List.mem_append_left _ (List.mem_append_left _ mem)
  · intro p mem
    rcases List.mem_append.1 mem with mem | mem
    · exact mem_or_closing kind mem
    · rw [List.mem_singleton.1 mem]
      exact .inr fun _ => ⟨s'.register.chain, .inl rfl, latest'⟩

theorem Abreast.fallsShort (h : Abreast settings mine replica root R k plans s)
    (short : FallsShort settings rig s s') :
    ∃ plans', Onward settings mine replica root R k plans plans' s' := by
  cases short with
  | early done => exact ⟨plans, .still (h.chores engine follows done)⟩
  | late final done => exact ⟨_, h.finished engine follows final done⟩
  | between planned first done =>
      rename_i taken id pre
      obtain ⟨kind, base, next⟩ := Cadence.finalPre?_eq_some planned
      have after := h.takes engine follows base (by rw [kind]; nofun) next first
      exact ⟨plans ++ [pre], after.chores engine follows done, List.subset_append_left ..,
        fun _ mem => mem_or_closing kind mem⟩

omit engine in
theorem Abreast.rests (h : Abreast settings mine replica root R k plans s)
    (rests : Rests rig s s') : Abreast settings mine replica root R k plans s' := by
  refine h.aside rests.chain rests.closed ?_ ?_
  · rw [rests.disk]
    exact h.images
  · obtain same | ⟨l, launched⟩ := rests.env
    · rw [same]
    · rw [launched]
      exact follows.launched l s.env

omit engine follows in
theorem Abreast.spared (h : Abreast settings mine replica root R k plans s) {disk : Disk}
    (spares : Spares settings R s.disk disk) :
    Abreast settings mine replica root R k plans { s with disk } := by
  refine h.aside rfl rfl ⟨spares.roots, ?_⟩ rfl
  intro p mem
  have image := h.images.images p mem
  obtain ⟨directory, children⟩ := spares.images _ image.directory
  refine ⟨directory, ?_, ?_⟩
  · rw [children]
    exact image.short
  · rw [children]
    exact image.linked

end Steps

/-- A course of a node that is abreast of its replica: its ledger has the full dumps that
closed its chains, and all of its chains follow the ledger. -/
structure KeepsUp (settings : Settings) (mine : String → Prop) (replica : σ → Disk)
    (root : Path) (R k : Location) (plans : List Plan) (ms : List (Moment σ)) (w : Working σ) :
    Prop where
  underway : Underway w
  abreast : Abreast settings mine (fun r : Recorded σ => replica r.state) root R k plans w.site
  closed : ∀ p ∈ plans, p.dump.isFull = true → ∃ c, EndsIn ms p.dump.name c
  traced : ∀ m ∈ ms, ∀ c, m.after.site.Shows c → Traced plans c.dumps

theorem KeepsUp.next {w w' : Working σ} {ms : List (Moment σ)} {e : Event} {a : Answer}
    (keeps : KeepsUp settings mine replica root R k plans ms w) (underway : Underway w')
    (onward : Onward settings mine (fun r : Recorded σ => replica r.state) root R k plans plans'
      w'.site) :
    KeepsUp settings mine replica root R k plans' (ms ++ [⟨e, a, w, w'⟩]) w' := by
  refine ⟨underway, onward.abreast, ?_, ?_⟩
  · intro p mem full
    obtain mem | closing := onward.closing p mem
    · obtain ⟨c, m, hm, ends⟩ := keeps.closed p mem full
      exact ⟨c, m, List.mem_append_left _ hm, ends⟩
    · obtain ⟨c, shows, latest⟩ := closing full
      exact ⟨c, _, List.mem_append_right _ (List.mem_singleton.2 rfl), shows, by rw [latest]; rfl⟩
  · intro m hm c shows
    rcases List.mem_append.1 hm with hm | hm
    · exact (keeps.traced m hm c shows).mono onward.grown
    · rw [List.mem_singleton.1 hm] at shows
      obtain rfl | closed := shows
      · exact onward.abreast.chain.1
      · exact (onward.abreast.closed c closed).1

theorem KeepsUp.step {w w' : Working σ} {ms : List (Moment σ)} {e : Event} {a : Answer}
    (engine : TakesImages settings rig R) (follows : Follows settings rig mine replica root R)
    (keeps : KeepsUp settings mine replica root R k plans ms w)
    (spared : ∀ disk, e = .received disk → Spares settings R w.site.disk disk)
    (h : e.perform settings rig w = some (a, w')) :
    ∃ plans', KeepsUp settings mine replica root R k plans' (ms ++ [⟨e, a, w, w'⟩]) w' := by
  obtain ⟨underway, works⟩ := keeps.underway.step h
  have engine := engine.recorded
  have follows := follows.recorded
  cases works with
  | chores _ done =>
      exact ⟨plans, keeps.next underway (.still (keeps.abreast.chores engine follows done))⟩
  | ticks plan ticks =>
      exact ⟨_, keeps.next underway (keeps.abreast.ticks engine follows ticks)⟩
  | rests _ rests =>
      exact ⟨plans, keeps.next underway (.still (keeps.abreast.rests follows rests))⟩
  | received disk =>
      exact ⟨plans, keeps.next underway (.still (keeps.abreast.spared (spared disk rfl)))⟩
  | handsOver _ hands =>
      rename_i t m _ _
      obtain ⟨_, _, pre, full, taken, final, completed, _⟩ := hands.steps
      have done : Chores settings rig.recorded _ _ := chores_completeTarget taken t
      rw [completed] at done
      exact ⟨_, keeps.next underway (keeps.abreast.finished engine follows final done)⟩
  | fallsShort _ short =>
      obtain ⟨plans', onward⟩ := keeps.abreast.fallsShort engine follows short
      exact ⟨plans', keeps.next underway onward⟩

theorem KeepsUp.course {w₀ w : Working σ} {ms : List (Moment σ)}
    (engine : TakesImages settings rig R) (follows : Follows settings rig mine replica root R)
    (keeps : KeepsUp settings mine replica root R k [] [] w₀)
    (course : Course settings rig w₀ ms w)
    (spared : ∀ m ∈ ms, ∀ disk, m.event = .received disk →
      Spares settings R m.before.site.disk disk) :
    ∃ plans, KeepsUp settings mine replica root R k plans ms w := by
  induction course with
  | start => exact ⟨[], keeps⟩
  | next _ h ih =>
      obtain ⟨plans, keeps⟩ := ih fun m hm => spared m (List.mem_append_left _ hm)
      refine keeps.step engine follows ?_ h
      exact spared _ (List.mem_append_right _ (List.mem_singleton.2 rfl))

theorem keepsUp_of_fresh {w : Working σ} (fresh : StartedFresh settings rig w)
    (own : w.site.disk.tree.Roots w.site.disk.cwd settings.dumpPath R)
    (copy : Replica [] (replica w.site.env.state) root k) :
    KeepsUp settings mine replica root R k [] [] w := by
  obtain ⟨underway, _, blank, none⟩ := fresh.underway
  have unmarked : Marked mine (replica w.site.env.state) k w.chain := by
    have links : w.chain.links = [] := List.map_eq_nil_iff.1 blank
    intro l hl
    rw [links] at hl
    cases hl
  have traced : Traced [] w.chain.dumps := by
    rw [blank]
    exact .empty []
  have images : Images settings R [] w.site.disk := ⟨own, by simp⟩
  have abreast : Abreast settings mine (fun r : Recorded σ => replica r.state) root R k []
      w.site := by
    refine ⟨.empty, by simp, images, copy, ⟨traced, unmarked⟩, ?_⟩
    have none : w.site.register.closed = Option.none := Option.map_eq_none_iff.1 none
    intro c hc
    rw [none] at hc
    cases hc
  exact ⟨underway, abreast, by simp, by simp⟩

/-- Recovery from a replica: from the dump that is found there its whole chain is read, if
the path of its link is not too long to be read at all. -/
theorem replicated_lineage {wire : Wire σ} {auth serving : Auth} {w₀ w : Working σ}
    {ms : List (Moment σ)} {d : Dump} (engine : TakesImages settings rig R)
    (listens : Listens settings rig wire auth serving mine replica root)
    (fresh : StartedFresh settings rig w₀)
    (own : w₀.site.disk.tree.Roots w₀.site.disk.cwd settings.dumpPath R)
    (found : (replica w₀.site.env.state).find root = .ok (.present k .directory))
    (empty : ∀ l, k <+: l → l ≠ k → (replica w₀.site.env.state).tree.get? l = none)
    (course : Course settings rig w₀ ms w)
    (spared : ∀ m ∈ ms, ∀ disk, m.event = .received disk →
      Spares settings R m.before.site.disk disk)
    (recovered : Lineage.recover (replica w.site.env.state) root = .ok d) :
    d.isFull = true ∧ (∃ c, EndsIn ms d.name c) ∧ ∀ c, EndsIn ms d.name c →
      Lineage.reconstruct (replica w.site.env.state) (d.pathIn root) =
        if ((d.pathIn root).joinText Lineage.linkName).bytes.length ≤ FileTree.maxPath then
          .ok c.names
        else .error (.unreadable ((d.pathIn root).joinText Lineage.linkName) (.os .nameTooLong)) := by
  have begun : KeepsUp settings mine replica root R k [] [] w₀ :=
    keepsUp_of_fresh fresh own (.of_empty found empty)
  obtain ⟨plans, keeps⟩ := begun.course engine listens.follows course spared
  have copy := keeps.abreast.copy
  have ledger := keeps.abreast.ledger
  obtain ⟨full, landed, p, planned, named⟩ := copy.recovered recovered
  have same := Dump.entryName_inj.1 named
  refine ⟨full, ?_, ?_⟩
  · have closing : p.dump.isFull = true := by
      unfold Dump.isFull at full ⊢
      rw [same.1]
      exact full
    rw [← Dump.name_inj.2 same]
    exact keeps.closed p planned closing
  · rintro c ⟨m, hm, shows, latest⟩
    obtain ⟨x, last, name⟩ := Option.map_eq_some_iff.1 latest
    have place : d.pathIn root = x.pathIn root := by
      unfold Dump.pathIn
      rw [name]
    have landed : Landed (replica w.site.env.state) k x := by
      rw [Landed, Dump.entryName, name]
      exact landed
    rw [place]
    rw [Chain.latest?_eq] at last
    split
    · rename_i room
      exact copy.reconstruct_eq ledger (keeps.traced m hm c shows) last landed room
    · rename_i long
      exact Replica.reconstruct_of_long copy.roots.leads (Nat.not_le.1 long)

def emptyDisk : Disk := .ofTree .empty []

/-- A dump without files and its predecessor, as they are sent. -/
def sentBytes (dump : Dump) (base : Option Dump) : Bytes :=
  (writeAll none ((base.map fun b => (.parentLink dump.name b.parentPath, [])).toList ++
    [(.done dump.name, [])])).bytes

def firstDump : Dump := ⟨.pre, 1, 1⟩

def secondDump : Dump := ⟨.full, 2, 0⟩

def firstDisk : Disk := emptyDisk.withImage [firstDump.entryName] none

def secondDisk : Disk :=
  firstDisk.withImage [secondDump.entryName] (some firstDump.parentPath)

def twoPassages : List Passage :=
  [⟨sentBytes firstDump none, emptyDisk, firstDisk⟩,
    ⟨sentBytes secondDump (some firstDump), firstDisk, secondDisk⟩]

def pairStart (frequency : UInt64) (passages : List Passage) : Working Disk :=
  (((Event.run sampleContainer ⟨[Path.slash]⟩).perform (.every frequency) (.paired passages)
    (.started emptyDisk emptyDisk)).map Prod.snd).getD (.started emptyDisk emptyDisk)

theorem two_served : ∀ p ∈ twoPassages, Whole p.bytes ∧
    serve none ⟨[Path.slash]⟩ [p.bytes] p.before = (favour, p.after) := by
  have first : readHeader none [sentBytes firstDump none] = .ok (.done firstDump.name, [[]]) := rfl
  have second : readHeader none [sentBytes secondDump none] =
      .ok (.done secondDump.name, [[]]) := rfl
  have link : readHeader none [sentBytes secondDump (some firstDump)] =
      .ok (.parentLink secondDump.name firstDump.parentPath, [sentBytes secondDump none]) := rfl
  intro p mem
  rcases List.mem_cons.1 mem with rfl | mem
  · exact ⟨.done first, serve_of_done first rfl⟩
  · rw [List.mem_singleton.1 mem]
    refine ⟨.link link (.done second), ?_⟩
    have linked : Intake.apply ⟨[Path.slash]⟩ ⟨firstDisk, [sentBytes secondDump none]⟩
        (.parentLink secondDump.name firstDump.parentPath) =
          (.ok none, ⟨secondDisk, [sentBytes secondDump none]⟩) := rfl
    exact (serve_of_link link linked).trans (serve_of_done second rfl)

theorem get?_emptyDisk {l : Location} (inner : l ≠ []) : emptyDisk.tree.get? l = none := by
  cases l with
  | nil => exact absurd rfl inner
  | cons name l => rfl

theorem roots_emptyDisk (frequency : UInt64) :
    emptyDisk.tree.Roots emptyDisk.cwd (Settings.every frequency).dumpPath [] :=
  FileTree.roots_of_empty rfl fun _ _ inner => get?_emptyDisk inner

/-- Two dumps are taken, and then a replica joins. -/
theorem replicated_lineage_sample : ∃ ms w c, Course (.every 2) (.paired twoPassages)
    (pairStart 2 twoPassages) ms w ∧ EndsIn ms secondDump.name c ∧
      c.names = [firstDump.name, secondDump.name] ∧
      Lineage.recover w.site.env.state ⟨[Path.slash]⟩ = .ok secondDump ∧
      Lineage.reconstruct w.site.env.state (secondDump.pathIn ⟨[Path.slash]⟩) = .ok c.names := by
  have fresh : StartedFresh (.every 2) (.paired twoPassages) (pairStart 2 twoPassages) :=
    ⟨.started emptyDisk emptyDisk, sampleContainer, ⟨[Path.slash]⟩, ⟨_, _, _, .start⟩, rfl, rfl⟩
  have course : Course (.every 2) (.paired twoPassages) (pairStart 2 twoPassages) _ _ :=
    .next (e := .message "h" (.join sampleJoin)) (.next (e := .tick)
      (.next (e := .tick) .start rfl) rfl) rfl
  have recovered : Lineage.recover secondDisk ⟨[Path.slash]⟩ = .ok secondDump := rfl
  have lineage := replicated_lineage (paired_takesImages 2 twoPassages)
    (paired_listens 2 two_served) fresh (roots_emptyDisk 2) rfl (fun _ _ => get?_emptyDisk)
    course ?_ recovered
  · refine ⟨_, _, _, course,
      ⟨_, List.mem_append_right _ (List.mem_singleton.2 rfl), .inr rfl, rfl⟩, rfl, rfl, ?_⟩
    refine (lineage.2.2 _
      ⟨_, List.mem_append_right _ (List.mem_singleton.2 rfl), .inr rfl, rfl⟩).trans ?_
    exact if_pos (by decide)
  · intro m mem disk received
    simp only [List.nil_append, List.cons_append, List.mem_cons, List.not_mem_nil] at mem
    obtain rfl | rfl | rfl | ⟨⟨⟩⟩ := mem <;> cases received

/-! ## A root with a long path -/

/-- A way to the top of a disk that leaves room for the name of a dump, and no more. -/
def longRoot : Path := ⟨List.replicate 4088 Path.slash⟩

def onlyDump : Dump := ⟨.full, 1, 0⟩

def onlyDisk : Disk := emptyDisk.withImage [onlyDump.entryName] none

def onlyPassage : List Passage := [⟨sentBytes onlyDump none, emptyDisk, onlyDisk⟩]

theorem only_served : ∀ p ∈ onlyPassage,
    Whole p.bytes ∧ serve none longRoot [p.bytes] p.before = (favour, p.after) := by
  have read : readHeader none [sentBytes onlyDump none] = .ok (.done onlyDump.name, [[]]) := rfl
  have applied : Intake.apply longRoot ⟨emptyDisk, [[]]⟩ (.done onlyDump.name) =
      (.ok (some onlyDump.name), ⟨onlyDisk, [[]]⟩) := by
    decide +kernel
  intro p mem
  rw [List.mem_singleton.1 mem]
  exact ⟨.done read, serve_of_done read applied⟩

/-- From a dump that was replicated its chain cannot be read. -/
theorem unreadable_lineage : ∃ ms w c,
    TakesImages (.every 1) (.paired onlyPassage) [] ∧
    Listens (.every 1) (.paired onlyPassage) (through onlyPassage) none none (fun _ => True)
      (fun s => s) longRoot ∧
    StartedFresh (.every 1) (.paired onlyPassage) (pairStart 1 onlyPassage) ∧
    emptyDisk.find longRoot = .ok (.present [] .directory) ∧
    Course (.every 1) (.paired onlyPassage) (pairStart 1 onlyPassage) ms w ∧
    (∀ m ∈ ms, ∀ disk, m.event ≠ .received disk) ∧
    Lineage.recover w.site.env.state longRoot = .ok onlyDump ∧ EndsIn ms onlyDump.name c ∧
    Lineage.reconstruct w.site.env.state (onlyDump.pathIn longRoot) ≠ .ok c.names := by
  have fresh : StartedFresh (.every 1) (.paired onlyPassage) (pairStart 1 onlyPassage) :=
    ⟨.started emptyDisk emptyDisk, sampleContainer, ⟨[Path.slash]⟩, ⟨_, _, _, .start⟩, rfl, rfl⟩
  have course : Course (.every 1) (.paired onlyPassage) (pairStart 1 onlyPassage) _ _ :=
    .next (e := .message "h" (.join sampleJoin)) (.next (e := .tick) .start rfl) rfl
  have recovered : Lineage.recover onlyDisk longRoot = .ok onlyDump := by
    decide +kernel
  have unread : Lineage.reconstruct onlyDisk (onlyDump.pathIn longRoot) ≠ .ok [onlyDump.name] := by
    decide +kernel
  refine ⟨_, _, _, paired_takesImages 1 onlyPassage, paired_listens 1 only_served, fresh,
    by decide +kernel, course, ?_, recovered,
    ⟨_, List.mem_append_right _ (List.mem_singleton.2 rfl), .inr rfl, rfl⟩, unread⟩
  intro m mem disk received
  simp only [List.nil_append, List.cons_append, List.mem_cons, List.not_mem_nil] at mem
  obtain rfl | rfl | ⟨⟨⟩⟩ := mem <;> cases received

end LiveMigration.Node
