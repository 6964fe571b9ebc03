import LiveMigration.Proofs.Chain.Held

/-!
What a replication pass sends. A record is kept beside the state of the sender. A pass works
off a list of dumps, each with the one before it in the chain, up to the first that is lost;
for `sync` this list is what comes behind the marks of the target.
-/

namespace LiveMigration.Chain

variable {σ ε : Type}

/-- A dump that was sent with its predecessor, and whether it arrived. -/
structure Attempt where
  dump : Dump
  before : Option Dump
  arrived : Bool
  deriving DecidableEq, Repr

/-- A sender that notes what it was asked to send. -/
def Send.noted (send : Send σ ε) : Send (σ × List Attempt) ε := fun d before s =>
  let (result, state) := send d before s.1
  (result, state, s.2 ++ [⟨d, before, result.isOk⟩])

/-- Dumps with their predecessors, the first one being behind `before`. -/
def pairsBehind (before : Option Dump) (ds : List Dump) : List (Dump × Option Dump) :=
  ds.zip (before :: ds.map some)

/-- Every dump of a chain with the one before it. -/
def pairs (c : Chain) : List (Dump × Option Dump) := pairsBehind none c.dumps

/-- How a list is worked off of which so many arrive: the next one is lost, if there is one,
and the rest is not sent. -/
def attemptsOf (todo : List (Dump × Option Dump)) (sent : Nat) : List Attempt :=
  (todo.take sent).map (fun p => ⟨p.1, p.2, true⟩) ++
    ((todo.drop sent).take 1).map fun p => ⟨p.1, p.2, false⟩

/-- The target is known to hold the dump at a place of the chain. -/
def IsHeld (c : Chain) (i : Nat) (key : String) : Prop :=
  ∃ l ∈ c.links[i]?, l.isHeldBy key = true

theorem pairsBehind_cons (before : Option Dump) (d : Dump) (ds : List Dump) :
    pairsBehind before (d :: ds) = (d, before) :: pairsBehind (some d) ds := rfl

theorem pairsBehind_append (before : Option Dump) (as bs : List Dump) :
    pairsBehind before (as ++ bs) =
      pairsBehind before as ++ pairsBehind (as.getLast?.or before) bs := by
  induction as generalizing before with
  | nil => rfl
  | cons a as ih =>
      rw [List.cons_append, pairsBehind_cons, pairsBehind_cons, ih, List.cons_append]
      cases as with
      | nil => rfl
      | cons b as => rw [List.getLast?_cons_cons, List.getLast?_cons, Option.some_or,
          Option.some_or]

theorem length_pairsBehind (before : Option Dump) (ds : List Dump) :
    (pairsBehind before ds).length = ds.length := by
  simp [pairsBehind]

theorem length_dumps (c : Chain) : c.dumps.length = c.length := List.length_map ..

theorem length_pairs (c : Chain) : c.pairs.length = c.length := by
  rw [pairs, length_pairsBehind, length_dumps]

/-- The predecessor of a dump is at the place before its own. -/
theorem getElem?_pairs (c : Chain) (i : Nat) :
    c.pairs[i]? = c.dumps[i]?.map fun d => (d, if i = 0 then none else c.dumps[i - 1]?) := by
  have behind (before : Option Dump) (ds : List Dump) :
      (pairsBehind before ds)[i]? =
        ds[i]?.map fun d => (d, if i = 0 then before else ds[i - 1]?) := by
    induction ds generalizing i before with
    | nil => rfl
    | cons d ds ih =>
        cases i with
        | zero => rfl
        | succ i =>
            rw [pairsBehind_cons, List.getElem?_cons_succ, List.getElem?_cons_succ, ih]
            cases i with
            | zero => rfl
            | succ i => rfl
  exact behind none c.dumps

/-! ## One pass -/

theorem attemptsOf_cons_succ (p : Dump × Option Dump) (todo : List (Dump × Option Dump))
    (sent : Nat) :
    attemptsOf (p :: todo) (sent + 1) = ⟨p.1, p.2, true⟩ :: attemptsOf todo sent := rfl

theorem attemptsOf_nil (sent : Nat) : attemptsOf [] sent = [] := by
  simp [attemptsOf]

theorem mem_of_mem_attemptsOf {todo : List (Dump × Option Dump)} {sent : Nat} {a : Attempt}
    (mem : a ∈ attemptsOf todo sent) : (a.dump, a.before) ∈ todo := by
  rcases List.mem_append.1 mem with mem | mem <;> obtain ⟨p, there, rfl⟩ := List.mem_map.1 mem
  · exact List.mem_of_mem_take there
  · exact List.mem_of_mem_drop (List.mem_of_mem_take there)

/-- Taking notes changes nothing, and the notes are how the dumps were worked off. -/
theorem sendLinks_noted (send : Send σ ε) (key : String) (before : Option Dump)
    (links : List Link) (s : σ) (log : List Attempt) :
    sendLinks send.noted key before links (s, log) =
      ⟨(sendLinks send key before links s).links, (sendLinks send key before links s).sent,
        (sendLinks send key before links s).state,
        log ++ attemptsOf (pairsBehind before (links.map Link.dump))
          (sendLinks send key before links s).sent⟩ := by
  induction links generalizing before s log with
  | nil => rw [sendLinks, sendLinks, List.map_nil, pairsBehind, List.zip_nil_left, attemptsOf_nil,
      List.append_nil]
  | cons l links ih =>
      rw [List.map_cons, pairsBehind_cons, sendLinks, sendLinks]
      cases sent : send l.dump before s with
      | mk result state =>
          have noted : send.noted l.dump before (s, log) =
              (result, state, log ++ [⟨l.dump, before, result.isOk⟩]) := by
            rw [Send.noted, sent]
          rw [noted]
          cases result with
          | error e => rfl
          | ok =>
              dsimp only
              rw [ih, attemptsOf_cons_succ, List.append_assoc]
              rfl

theorem sent_sendLinks_le (send : Send σ ε) (key : String) (before : Option Dump)
    (links : List Link) (s : σ) :
    (sendLinks send key before links s).sent ≤ links.length := by
  induction links generalizing before s with
  | nil => exact Nat.le_refl 0
  | cons l links ih =>
      rw [sendLinks]
      split
      · exact Nat.succ_le_succ (ih _ _)
      · exact Nat.zero_le _

/-- The dumps that arrived are marked, and nothing else happens to the links. -/
theorem links_sendLinks (send : Send σ ε) (key : String) (before : Option Dump)
    (links : List Link) (s : σ) :
    (sendLinks send key before links s).links =
      (links.take (sendLinks send key before links s).sent).map (·.mark key) ++
        links.drop (sendLinks send key before links s).sent := by
  induction links generalizing before s with
  | nil => rfl
  | cons l links ih =>
      rw [sendLinks]
      split
      · rename_i state _
        exact congrArg (l.mark key :: ·) (ih (some l.dump) state)
      · rfl

/-- A pass to one target that worked off the dumps from a place on. -/
structure Passed (key : String) (start sent : Nat) (attempts : List Attempt) (c c' : Chain) :
    Prop where
  within : start + sent ≤ c.length
  attempts : attempts = attemptsOf (c.pairs.drop start) sent
  dumps : c'.dumps = c.dumps
  marks : ∀ i other, c'.IsHeld i other ↔
    c.IsHeld i other ∨ other = key ∧ start ≤ i ∧ i < start + sent

theorem passed_of_links (key : String) (kept : List Link) {rest : List Link} {sent : Nat}
    (few : sent ≤ rest.length) :
    Passed key kept.length sent
      (attemptsOf (pairsBehind (kept.getLast?.map Link.dump) (rest.map Link.dump)) sent)
      ⟨kept ++ rest⟩ ⟨kept ++ ((rest.take sent).map (·.mark key) ++ rest.drop sent)⟩ := by
  have front : (rest.take sent).length = sent := List.length_take_of_le few
  refine ⟨?_, ?_, ?_, ?_⟩
  · rw [length, List.length_append]
    exact Nat.add_le_add_left few _
  · have kept' : (kept.map Link.dump).length = kept.length := List.length_map ..
    rw [pairs, dumps, List.map_append, pairsBehind_append, ← kept',
      ← length_pairsBehind none (kept.map Link.dump), List.drop_left, List.getLast?_map,
      Option.or_none]
  · rw [dumps, dumps, List.map_append, List.map_append, List.map_append, List.map_map,
      show Link.dump ∘ (·.mark key) = Link.dump from funext fun l => dump_mark l key,
      ← List.map_append, List.take_append_drop]
  · intro i other
    unfold IsHeld
    dsimp only
    by_cases early : i < kept.length
    · rw [List.getElem?_append_left early, List.getElem?_append_left early]
      exact (or_iff_left fun later => absurd early (Nat.not_lt.2 later.2.1)).symm
    · have low : kept.length ≤ i := Nat.not_lt.1 early
      rw [List.getElem?_append_right low, List.getElem?_append_right low]
      by_cases inside : i - kept.length < sent
      · rw [List.getElem?_append_left (by rwa [List.length_map, front]), List.getElem?_map,
          List.getElem?_take_of_lt inside]
        have there : i - kept.length < rest.length := Nat.lt_of_lt_of_le inside few
        rw [List.getElem?_eq_getElem there]
        simp only [Option.map_some, Option.mem_def, Option.some.injEq, exists_eq_left',
          isHeldBy_mark]
        refine or_congr_right ⟨fun same => ⟨same, low, by omega⟩, And.left⟩
      · have behind : sent ≤ i - kept.length := Nat.not_lt.1 inside
        rw [List.getElem?_append_right (by rwa [List.length_map, front]), List.length_map, front,
          List.getElem?_drop, Nat.add_sub_cancel' behind]
        refine (or_iff_left fun later => inside ?_).symm
        exact Nat.sub_lt_left_of_lt_add low later.2.2

/-- What a `sync` is noted to send. -/
def syncAttempts (c : Chain) (send : Send σ ε) (key : String) (s : σ) : List Attempt :=
  (c.sync send.noted key (s, [])).2.2.2

/-- What a `sendAll` is noted to send. -/
def sendAllAttempts (c : Chain) (send : Send σ ε) (key : String) (s : σ) : List Attempt :=
  (c.sendAll send.noted key (s, [])).2.2.2

variable {c : Chain} {key : String}

/-- In a chain whose marks go by age, the marks of a target end where its missing dumps
begin. -/
theorem isHeld_iff (ordered : c.HeldInOrder) (key : String) (i : Nat) :
    c.IsHeld i key ↔ i < (c.heldPart key).length := by
  have parts := c.heldPart_append_pendingPart key
  have held : ∀ l ∈ c.heldPart key, l.isHeldBy key = true := by
    cases last : (c.heldPart key).getLast? with
    | none =>
        rw [List.getLast?_eq_none_iff.1 last]
        exact nofun
    | some l =>
        refine held_of_last ?_ last (c.last_heldPart key l last)
        exact (ordered key).sublist (parts ▸ List.sublist_append_left ..)
  have pending : ∀ l ∈ c.pendingPart key, l.isHeldBy key = false := by
    intro l mem
    have := List.all_takeWhile (l := c.links.reverse) (p := fun l => !l.isHeldBy key)
    have := List.all_eq_true.1 this l (List.mem_reverse.1 mem)
    simpa using this
  unfold IsHeld
  rw [← parts]
  by_cases early : i < (c.heldPart key).length
  · rw [List.getElem?_append_left early, List.getElem?_eq_getElem early]
    exact ⟨fun _ => early, fun _ => ⟨_, rfl, held _ (List.getElem_mem early)⟩⟩
  · rw [List.getElem?_append_right (Nat.not_lt.1 early)]
    refine ⟨?_, fun h => absurd h early⟩
    rintro ⟨l, there, marked⟩
    rw [pending l (List.mem_of_getElem? there)] at marked
    cases marked

theorem syncAttempts_eq (c : Chain) (send : Send σ ε) (key : String) (s : σ) :
    c.syncAttempts send key s = attemptsOf
      (pairsBehind ((c.heldPart key).getLast?.map Link.dump) ((c.pendingPart key).map Link.dump))
      (c.sync send key s).1 := by
  have noted := sendLinks_noted send key ((c.heldPart key).getLast?.map Link.dump)
    (c.pendingPart key) s []
  exact congrArg (fun pass => pass.state.2) noted

theorem passed_sync (c : Chain) (send : Send σ ε) (key : String) (s : σ) :
    Passed key (c.heldPart key).length (c.sync send key s).1 (c.syncAttempts send key s) c
      (c.sync send key s).2.1 := by
  have passed := passed_of_links key (c.heldPart key)
    (sent_sendLinks_le send key ((c.heldPart key).getLast?.map Link.dump) (c.pendingPart key) s)
  rw [← links_sendLinks, heldPart_append_pendingPart] at passed
  rw [syncAttempts_eq]
  exact passed

theorem sendAllAttempts_eq (c : Chain) (send : Send σ ε) (key : String) (s : σ) :
    c.sendAllAttempts send key s = attemptsOf c.pairs (c.sendAll send key s).1 := by
  have noted := sendLinks_noted send key none c.links s []
  exact congrArg (fun pass => pass.state.2) noted

theorem passed_sendAll (c : Chain) (send : Send σ ε) (key : String) (s : σ) :
    Passed key 0 (c.sendAll send key s).1 (c.sendAllAttempts send key s) c
      (c.sendAll send key s).2.1 := by
  have passed := passed_of_links key []
    (sent_sendLinks_le send key none c.links s)
  rw [← links_sendLinks] at passed
  rw [sendAllAttempts_eq]
  exact passed

end LiveMigration.Chain
