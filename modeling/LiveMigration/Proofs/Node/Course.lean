import LiveMigration.Node.Loop
import LiveMigration.Node.Remote
import LiveMigration.Node.Supervision

/-!
Courses of a node: what it goes through when its loop, its timers, its operator, other nodes
and the ends of its processes act in any order. A record of engine calls, launches and
transfers is kept beside the state of what the node works with; it is written by every such
deed and read by nothing.
-/

namespace LiveMigration.Node

variable {σ : Type}

inductive Deed
  | called (c : Engine.Call) (done : Bool)
  | launched (l : Engine.Launch)
  | sent (t : Target) (d : Dump) (before : Option Dump) (arrived : Bool)
  deriving DecidableEq, Repr

/-- A state with the deeds that led to it, oldest first. -/
structure Recorded (σ : Type) where
  state : σ
  deeds : List Deed

def Rig.recorded (rig : Rig σ) : Rig (Recorded σ) where
  engine := fun c disk r =>
    let (result, disk, state) := rig.engine c disk r.state
    (result, disk, ⟨state, r.deeds ++ [.called c result.isOk]⟩)
  launched := fun l r => ⟨rig.launched l r.state, r.deeds ++ [.launched l]⟩
  send := fun disk t d before r =>
    let (result, state) := rig.send disk t d before r.state
    (result, ⟨state, r.deeds ++ [.sent t d before result.isOk]⟩)
  network := fun address line r =>
    let (answer, state) := rig.network address line r.state
    (answer, ⟨state, r.deeds⟩)

/-- A node at work, with how far its loop has got. -/
structure Working (σ : Type) where
  activity : Activity
  site : Site (Recorded σ)

namespace Working

abbrev status (w : Working σ) : Status := w.site.register.status

abbrev chain (w : Working σ) : Chain := w.site.register.chain

abbrev closed (w : Working σ) : Option Chain := w.site.register.closed

abbrev deeds (w : Working σ) : List Deed := w.site.env.deeds

end Working

/-- What may happen to a node. -/
inductive Event
  /-- The loop takes its next step. -/
  | proceed
  /-- The liveness timer of a replica runs out. -/
  | silence
  | tick
  | pingRound
  /-- A ping round that began earlier ends and removes the silent targets. -/
  | drop (silent : List Target)
  | message (host : String) (m : Rpc.Message)
  | command (c : Control.Command)
  | run (id : ContainerId) (bundle : Path)
  | join (source : String) (bundle : Path)
  | signal
  | processEnd (l : Engine.Launch) (result : Except EngineError Exit)
  | supervise
  /-- Someone else writes to the disk, such as the listener for dumps. -/
  | received (disk : Disk)

inductive Answer
  | nothing
  | dumped (result : Except NodeError (Option Dump))
  | removed (n : Nat)
  | reply (r : Rpc.Reply)
  | outcome (result : Except NodeError Unit)

/-- What an event makes of a node; none if it ends with an overflow of the sequence numbers. -/
def Event.perform (settings : Settings) (rig : Rig σ) (e : Event) (w : Working σ) :
    Option (Answer × Working σ) :=
  match e with
  | .proceed =>
    match w.site.proceed settings rig.recorded w.activity with
    | (some a, s) => some (.nothing, ⟨a, s⟩)
    | (none, _) => none
  | .silence =>
    let (a, s) := w.site.onSilence w.activity
    some (.nothing, ⟨a, s⟩)
  | .tick =>
    match w.site.dumpTick settings rig.recorded with
    | (.ok dump, s) => some (.dumped (.ok dump), { w with site := s })
    | (.error (.error e), s) => some (.dumped (.error e), { w with site := s })
    | (.error .overflow, _) => none
  | .pingRound =>
    let (n, s) := w.site.pingTargets settings rig.recorded
    some (.removed n, { w with site := s })
  | .drop silent =>
    let (n, r) := Site.dropTargets silent w.site.register
    some (.removed n, { w with site := w.site.setRegister r })
  | .message host m =>
    let (reply, s) := w.site.handle settings rig.recorded host m
    some (.reply reply, { w with site := s })
  | .command c =>
    match w.site.execute settings rig.recorded c with
    | (.ok (), s) => some (.outcome (.ok ()), { w with site := s })
    | (.error (.error e), s) => some (.outcome (.error e), { w with site := s })
    | (.error .overflow, _) => none
  | .run id bundle =>
    let (result, s) := w.site.run rig.recorded id bundle
    some (.outcome result, { w with site := s })
  | .join source bundle =>
    let (result, s) := w.site.join source bundle
    some (.outcome result, { w with site := s })
  | .signal => some (.nothing, { w with site := w.site.onSignal })
  | .processEnd l result =>
    some (.nothing, { w with site := (w.site.endProcess l result).getD w.site })
  | .supervise => some (.nothing, { w with site := w.site.supervise })
  | .received disk => some (.nothing, { w with site := { w.site with disk } })

section

variable {settings : Settings} {rig : Rig σ} {w w' : Working σ} {a : Answer}

theorem proceed_of_perform (h : Event.proceed.perform settings rig w = some (a, w')) :
    w.site.proceed settings rig.recorded w.activity = (some w'.activity, w'.site) := by
  unfold Event.perform at h
  dsimp only at h
  split at h
  · rename_i hp
    cases h
    exact hp
  · cases h

theorem answer_of_proceed (h : Event.proceed.perform settings rig w = some (a, w')) :
    a = .nothing := by
  unfold Event.perform at h
  dsimp only at h
  split at h <;> cases h
  rfl

theorem dumpTick_of_perform (h : Event.tick.perform settings rig w = some (a, w')) :
    ∃ r s, w.site.dumpTick settings rig.recorded = (r.mapError .error, s) ∧ a = .dumped r ∧
      w' = { w with site := s } := by
  unfold Event.perform at h
  dsimp only at h
  split at h
  · rename_i dump s ticked
    cases h
    exact ⟨.ok dump, s, ticked, rfl, rfl⟩
  · rename_i e s ticked
    cases h
    exact ⟨.error e, s, ticked, rfl, rfl⟩
  · cases h

theorem execute_of_perform {c : Control.Command}
    (h : (Event.command c).perform settings rig w = some (a, w')) :
    ∃ r s, w.site.execute settings rig.recorded c = (r.mapError .error, s) ∧ a = .outcome r ∧
      w' = { w with site := s } := by
  unfold Event.perform at h
  dsimp only at h
  split at h
  · rename_i s executed
    cases h
    exact ⟨.ok (), s, executed, rfl, rfl⟩
  · rename_i e s executed
    cases h
    exact ⟨.error e, s, executed, rfl, rfl⟩
  · cases h

end

/-- An event and the node before and after it. -/
structure Moment (σ : Type) where
  event : Event
  answer : Answer
  before : Working σ
  after : Working σ

/-- The moments that lead from one state of a node to another, oldest first. -/
inductive Course (settings : Settings) (rig : Rig σ) (w₀ : Working σ) :
    List (Moment σ) → Working σ → Prop
  | start : Course settings rig w₀ [] w₀
  | next {ms : List (Moment σ)} {w w' : Working σ} {e : Event} {a : Answer}
      (course : Course settings rig w₀ ms w) (h : e.perform settings rig w = some (a, w')) :
      Course settings rig w₀ (ms ++ [⟨e, a, w, w'⟩]) w'

/-- What holds at first and is kept by every event holds at the end of every course. -/
theorem Course.preserves {settings : Settings} {rig : Rig σ} {w₀ w : Working σ}
    {ms : List (Moment σ)} {P : Working σ → Prop} (course : Course settings rig w₀ ms w)
    (init : P w₀)
    (step : ∀ {w w' : Working σ} {e : Event} {a : Answer}, P w →
      e.perform settings rig w = some (a, w') → P w') : P w := by
  induction course with
  | start => exact init
  | next _ h ih => exact step ih h

/-- A node that was started and has done nothing since. -/
def standingBy : Node where
  register := { Register.initial with status := .standBy, changes := 1 }
  pinged := false
  processes := []
  endings := []
  supervised := true

def Working.started (disk : Disk) (env : σ) : Working σ :=
  ⟨.deciding, ⟨standingBy, disk, ⟨env, []⟩⟩⟩

/-- Settings, an engine that always succeeds and a network that always delivers dumps, for
courses that are run through. -/
def Settings.sample : Settings where
  rpcHost := "h"
  rpcPort := ⟨1, by decide⟩
  filePort := ⟨2, by decide⟩
  dumpPath := ⟨[Path.slash]⟩
  controlSocket := ⟨[Path.slash, 0x73]⟩
  frequency := 2
  limits := ⟨1, 1⟩

def Rig.sample : Rig Unit where
  engine := fun _ disk s => (.ok (), disk, s)
  launched := fun _ s => s
  send := fun _ _ _ _ s => (.ok (), s)
  network := fun _ _ s => (.late, s)

def sampleContainer : ContainerId := ⟨"c", by decide⟩

/-- A disk with the directory of one full dump. -/
def sampleDisk : Disk := .ofTree ⟨[([[0x64, 0x31]], .directory)]⟩ []

def sampleAfter (es : List Event) : Working Unit :=
  es.foldl (fun w e => ((e.perform .sample .sample w).map Prod.snd).getD w)
    (.started sampleDisk ())

def sampleJoin : Rpc.Join where
  rpcPort := ⟨3, by decide⟩
  dumpPath := ⟨[Path.slash]⟩
  filePort := ⟨4, by decide⟩
  absolute := rfl

def Reached (settings : Settings) (rig : Rig σ) (w : Working σ) : Prop :=
  ∃ disk env ms, Course settings rig (.started disk env) ms w

theorem Reached.next {settings : Settings} {rig : Rig σ} {w w' : Working σ} {e : Event}
    {a : Answer} (reached : Reached settings rig w)
    (h : e.perform settings rig w = some (a, w')) : Reached settings rig w' := by
  obtain ⟨disk, env, ms, course⟩ := reached
  exact ⟨disk, env, _, course.next h⟩

/-- Whatever is done with a node one after another, it stays reached. -/
theorem Reached.after {settings : Settings} {rig : Rig σ} {w : Working σ}
    (reached : Reached settings rig w) (es : List Event) :
    Reached settings rig
      (es.foldl (fun w e => ((e.perform settings rig w).map Prod.snd).getD w) w) := by
  induction es generalizing w with
  | nil => exact reached
  | cons e es ih =>
      refine ih ?_
      dsimp only
      cases h : e.perform settings rig w with
      | none => exact reached
      | some p =>
          obtain ⟨a, w'⟩ := p
          exact reached.next h

theorem reached_started (settings : Settings) (rig : Rig σ) (disk : Disk) (env : σ) :
    Reached settings rig (.started disk env) :=
  ⟨disk, env, [], .start⟩

theorem reached_sampleAfter (es : List Event) : Reached .sample .sample (sampleAfter es) :=
  (reached_started .sample .sample sampleDisk ()).after es

theorem Course.trans {settings : Settings} {rig : Rig σ} {w₀ w w' : Working σ}
    {ms more : List (Moment σ)} (course : Course settings rig w₀ ms w)
    (further : Course settings rig w more w') : Course settings rig w₀ (ms ++ more) w' := by
  induction further with
  | start => rwa [List.append_nil]
  | next _ h ih =>
      rw [← List.append_assoc]
      exact ih.next h

theorem Reached.along {settings : Settings} {rig : Rig σ} {w w' : Working σ}
    {ms : List (Moment σ)} (reached : Reached settings rig w)
    (course : Course settings rig w ms w') : Reached settings rig w' := by
  obtain ⟨disk, env, _, first⟩ := reached
  exact ⟨disk, env, _, first.trans course⟩

/-- The moments of events one after another; an event that ends the node is left out. -/
def momentsFrom (settings : Settings) (rig : Rig σ) (w : Working σ) :
    List Event → List (Moment σ)
  | [] => []
  | e :: es =>
    match e.perform settings rig w with
    | none => momentsFrom settings rig w es
    | some (a, w') => ⟨e, a, w, w'⟩ :: momentsFrom settings rig w' es

theorem course_momentsFrom (settings : Settings) (rig : Rig σ) (w : Working σ)
    (es : List Event) : Course settings rig w (momentsFrom settings rig w es)
      (es.foldl (fun w e => ((e.perform settings rig w).map Prod.snd).getD w) w) := by
  induction es generalizing w with
  | nil => exact .start
  | cons e es ih =>
      rw [List.foldl_cons, momentsFrom]
      cases h : e.perform settings rig w with
      | none => exact ih w
      | some p =>
          obtain ⟨a, w'⟩ := p
          have one : Course settings rig w [⟨e, a, w, w'⟩] w' := .next .start h
          exact one.trans (ih w')

def sampleMoments (es : List Event) : List (Moment Unit) :=
  momentsFrom .sample .sample (.started sampleDisk ()) es

theorem course_sample (es : List Event) :
    Course .sample .sample (.started sampleDisk ()) (sampleMoments es) (sampleAfter es) :=
  course_momentsFrom .sample .sample _ es

end LiveMigration.Node
