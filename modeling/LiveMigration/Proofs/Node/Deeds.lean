import LiveMigration.Proofs.Node.Underway

/-!
The record of a node only grows. What a dump asked of the engine is in it, and so is every
transfer behind a mark.
-/

namespace LiveMigration.Node

variable {σ : Type} {settings : Settings} {rig : Rig σ}

/-- What the engine is asked for when a dump is taken. -/
def dumpCall (settings : Settings) (id : ContainerId) (plan : Plan) (leaveRunning : Bool) :
    Engine.Call :=
  match plan.dump.kind with
  | .pre => .preDump id (plan.dump.pathIn settings.dumpPath) plan.parentPath
  | .full | .checkpoint =>
    .dump id (plan.dump.pathIn settings.dumpPath) plan.parentPath leaveRunning

theorem deeds_callEngine (rig : Rig σ) (c : Engine.Call) (s : Site (Recorded σ)) :
    (s.callEngine rig.recorded c).2.env.deeds =
      s.env.deeds ++ [.called c (s.callEngine rig.recorded c).1.isOk] := rfl

theorem deeds_of_takeDump {id : ContainerId} {plan : Plan} {leaveRunning : Bool}
    {s s' : Site (Recorded σ)} {r : Except EngineError Unit}
    (h : s.takeDump settings rig.recorded id plan leaveRunning = (r, s')) :
    s'.env.deeds = s.env.deeds ++ [.called (dumpCall settings id plan leaveRunning) r.isOk] := by
  have asked : s.callEngine rig.recorded (dumpCall settings id plan leaveRunning) = (r, s') := h
  have deeds := deeds_callEngine rig (dumpCall settings id plan leaveRunning) s
  rw [asked] at deeds
  exact deeds

theorem Takes.deeds_eq {id : ContainerId} {plan : Plan} {leaveRunning : Bool}
    {s s' : Site (Recorded σ)} (h : Takes settings rig.recorded id plan leaveRunning s s') :
    s'.env.deeds = s.env.deeds ++ [.called (dumpCall settings id plan leaveRunning) true] := by
  obtain ⟨taken, ht, rfl⟩ := h
  exact deeds_of_takeDump ht

theorem deeds_of_send {disk : Disk} {t : Target} {d : Dump} {before : Option Dump}
    {r r' : Recorded σ} {result : Except TransferError Unit}
    (h : rig.recorded.send disk t d before r = (result, r')) :
    r'.deeds = r.deeds ++ [.sent t d before result.isOk] := by
  have deeds : (rig.recorded.send disk t d before r).2.deeds =
      r.deeds ++ [.sent t d before (rig.recorded.send disk t d before r).1.isOk] := rfl
  rw [h] at deeds
  exact deeds

/-- A record went on without a launch. -/
def Quiet (deeds deeds' : List Deed) : Prop :=
  ∃ more, deeds' = deeds ++ more ∧ ∀ l, Deed.launched l ∉ more

theorem Quiet.refl (deeds : List Deed) : Quiet deeds deeds :=
  ⟨[], (List.append_nil deeds).symm, fun _ => List.not_mem_nil⟩

theorem Quiet.of_eq {a b : List Deed} (h : b = a) : Quiet a b := h ▸ .refl a

theorem Quiet.trans {a b c : List Deed} (h : Quiet a b) (k : Quiet b c) : Quiet a c := by
  obtain ⟨more, rfl, quiet⟩ := h
  obtain ⟨rest, rfl, quiet'⟩ := k
  refine ⟨more ++ rest, List.append_assoc a more rest, ?_⟩
  intro l mem
  rcases List.mem_append.1 mem with mem | mem
  · exact quiet l mem
  · exact quiet' l mem

theorem Quiet.single {a b : List Deed} {d : Deed} (h : b = a ++ [d])
    (other : ∀ l, d ≠ .launched l) : Quiet a b := by
  refine ⟨[d], h, ?_⟩
  intro l mem
  exact other l (List.mem_singleton.1 mem).symm

theorem Quiet.grows {a b : List Deed} (h : Quiet a b) : a <+: b := by
  obtain ⟨more, rfl, _⟩ := h
  exact List.prefix_append a more

theorem quiet_of_sends {disk : Disk} {t : Target} {a b : Chain × Recorded σ}
    (h : Chain.Sends (rig.recorded.send disk t) t.key a b) : Quiet a.2.deeds b.2.deeds := by
  cases h with
  | arrived _ h | lost _ h => exact .single (deeds_of_send h) nofun

theorem Takes.quiet {id : ContainerId} {plan : Plan} {leaveRunning : Bool}
    {s s' : Site (Recorded σ)} (h : Takes settings rig.recorded id plan leaveRunning s s') :
    Quiet s.env.deeds s'.env.deeds :=
  .single h.deeds_eq nofun

theorem Chore.quiet {s s' : Site (Recorded σ)} (h : Chore settings rig.recorded s s') :
    Quiet s.env.deeds s'.env.deeds := by
  cases h with
  | node | cleared | network => exact .refl _
  | kill id => exact .single (deeds_callEngine rig (.kill id) s) nofun
  | failedDump _ h | checkpoint _ h => exact .single (deeds_of_takeDump h) nofun
  | sent h => exact quiet_of_sends h
  | sentClosed _ h => exact quiet_of_sends h

theorem Chores.quiet {s s' : Site (Recorded σ)} (h : Chores settings rig.recorded s s') :
    Quiet s.env.deeds s'.env.deeds := by
  induction h with
  | refl => exact .refl _
  | tail _ h ih => exact ih.trans h.quiet

theorem Ticks.quiet {plan : Plan} {s s' : Site (Recorded σ)}
    (h : Ticks settings rig.recorded plan s s') : Quiet s.env.deeds s'.env.deeds := by
  obtain ⟨id, taken, synced, _, takes, done, rfl⟩ := h.steps
  rw [env_closeBehind]
  exact takes.quiet.trans done.quiet

theorem Chore.deeds_prefix {s s' : Site (Recorded σ)} (h : Chore settings rig.recorded s s') :
    s.env.deeds <+: s'.env.deeds :=
  h.quiet.grows

theorem Chores.deeds_prefix {s s' : Site (Recorded σ)} (h : Chores settings rig.recorded s s') :
    s.env.deeds <+: s'.env.deeds :=
  h.quiet.grows

end LiveMigration.Node
