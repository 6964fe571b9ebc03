import LiveMigration.Proofs.Chain.Attempts

/-!
The marks of a chain over its whole life. Dumps are pushed and targets are brought up to date
in any order, with any outcome of each send. The marks of a target are always on the oldest
dumps, they stay, and without `sendAll` they tell exactly what arrived there, in order and
once each.
-/

namespace LiveMigration.Chain

variable {σ ε : Type}

/-- What is done with a chain; every pass may have a sender of its own. -/
inductive Act (σ ε : Type)
  | push (d : Dump)
  | sync (key : String) (send : Send σ ε)
  | sendAll (key : String) (send : Send σ ε)

namespace Act

def key? : Act σ ε → Option String
  | push _ => none
  | sync key _ | sendAll key _ => some key

def isSendAll : Act σ ε → Bool
  | sendAll _ _ => true
  | _ => false

end Act

/-- An act, the chain before and after it, what was sent, and the number it returned. -/
structure Moment (σ ε : Type) where
  act : Act σ ε
  before : Chain
  sent : Nat
  attempts : List Attempt
  after : Chain

def Act.perform (act : Act σ ε) (c : Chain) (s : σ) : Moment σ ε × σ :=
  match act with
  | .push d => (⟨act, c, 0, [], c.push d⟩, s)
  | .sync key send =>
    let (sent, after, state) := c.sync send key s
    (⟨act, c, sent, c.syncAttempts send key s, after⟩, state)
  | .sendAll key send =>
    let (sent, after, state) := c.sendAll send key s
    (⟨act, c, sent, c.sendAllAttempts send key s, after⟩, state)

/-- One act after another, with the chain that they end with. -/
def run : List (Act σ ε) → Chain → σ → List (Moment σ ε) × Chain
  | [], c, _ => ([], c)
  | act :: acts, c, s =>
    let (m, s) := act.perform c s
    let (ms, last) := run acts m.after s
    (m :: ms, last)

/-- What has arrived at a target, with the predecessors that were sent along. -/
def Moment.arrivals (m : Moment σ ε) (key : String) : List (Dump × Option Dump) :=
  if m.act.key? = some key then
    (m.attempts.filter (·.arrived)).map fun a => (a.dump, a.before)
  else []

/-- A target is known to hold the oldest dumps, so many of them, and no others. -/
def HeldUpTo (c : Chain) (key : String) (n : Nat) : Prop := ∀ i, c.IsHeld i key ↔ i < n

/-- What an act may do: no mark is taken away and none is set for another target, every dump
is sent with the one before it, and a pass works off what it has to in order. -/
structure Moment.Orderly (m : Moment σ ε) : Prop where
  segment : ∀ key, ∃ n, m.before.HeldUpTo key n
  grows : m.before.dumps <+: m.after.dumps
  lasting : ∀ i key, m.before.IsHeld i key → m.after.IsHeld i key
  apart : ∀ i key, m.act.key? ≠ some key → (m.after.IsHeld i key ↔ m.before.IsHeld i key)
  linked : ∀ a ∈ m.attempts, ∃ i, m.before.dumps[i]? = some a.dump ∧
    a.before = if i = 0 then none else m.before.dumps[i - 1]?
  pushes : ∀ d, m.act = .push d → m.attempts = [] ∧ m.after.dumps = m.before.dumps ++ [d]
  syncs : ∀ key send, m.act = .sync key send → ∃ start, m.before.HeldUpTo key start ∧
    Passed key start m.sent m.attempts m.before m.after
  sendsAll : ∀ key send, m.act = .sendAll key send →
    Passed key 0 m.sent m.attempts m.before m.after

/-! ## Marks on the oldest dumps -/

theorem heldInOrder_ofDumps (ds : List Dump) : (ofDumps ds).HeldInOrder := by
  intro key
  refine List.pairwise_map.2 (List.pairwise_iff_forall_sublist.2 ?_)
  intro _ _ _ held
  cases held

theorem HeldInOrder.perform {c : Chain} (ordered : c.HeldInOrder) (act : Act σ ε) (s : σ) :
    (act.perform c s).1.after.HeldInOrder := by
  have kept {send : Send σ ε} {key : String} {a b : Chain × σ}
      (sends : Relation.ReflTransGen (Sends send key) a b) (o : a.1.HeldInOrder) :
      b.1.HeldInOrder := by
    induction sends with
    | refl => exact o
    | tail _ one ih => exact ih.sends one
  cases act with
  | push d => exact ordered.push d
  | sync key send => exact kept (sends_sync c send key s) ordered
  | sendAll key send => exact kept (sends_sendAll c send key s) ordered

theorem HeldInOrder.heldUpTo {c : Chain} (ordered : c.HeldInOrder) (key : String) :
    c.HeldUpTo key (c.heldPart key).length :=
  isHeld_iff ordered key

theorem HeldUpTo.unique {c : Chain} {key : String} {n m : Nat} (h : c.HeldUpTo key n)
    (k : c.HeldUpTo key m) : n = m := by
  have same (i : Nat) : i < n ↔ i < m := (h i).symm.trans (k i)
  have := same n
  have := same m
  omega

theorem HeldUpTo.le_length {c : Chain} {key : String} {n : Nat} (h : c.HeldUpTo key n) :
    n ≤ c.length := by
  rcases Nat.eq_zero_or_pos n with rfl | positive
  · exact Nat.zero_le _
  · obtain ⟨l, there, _⟩ := (h (n - 1)).2 (by omega)
    have := (List.getElem?_eq_some_iff.1 there).1
    unfold length
    omega

theorem isHeld_push (c : Chain) (d : Dump) (i : Nat) (key : String) :
    (c.push d).IsHeld i key ↔ c.IsHeld i key := by
  unfold IsHeld push
  dsimp only
  by_cases early : i < c.links.length
  · rw [List.getElem?_append_left early]
  · have low : c.links.length ≤ i := Nat.not_lt.1 early
    rw [List.getElem?_append_right low, List.getElem?_eq_none low]
    refine ⟨?_, nofun⟩
    rintro ⟨l, there, held⟩
    rw [List.mem_singleton.1 (List.mem_of_getElem? there)] at held
    cases held

/-! ## One act -/

theorem Passed.linked {key : String} {start sent : Nat} {attempts : List Attempt}
    {c c' : Chain} (passed : Passed key start sent attempts c c') :
    ∀ a ∈ attempts, ∃ i, c.dumps[i]? = some a.dump ∧
      a.before = if i = 0 then none else c.dumps[i - 1]? := by
  intro a mem
  rw [passed.attempts] at mem
  have paired : (a.dump, a.before) ∈ c.pairs := List.mem_of_mem_drop (mem_of_mem_attemptsOf mem)
  obtain ⟨i, there⟩ := List.mem_iff_getElem?.1 paired
  rw [getElem?_pairs] at there
  obtain ⟨d, found, same⟩ := Option.map_eq_some_iff.1 there
  obtain ⟨rfl, before⟩ := Prod.mk.inj same
  exact ⟨i, found, before.symm⟩

theorem Passed.length_eq {key : String} {start sent : Nat} {attempts : List Attempt}
    {c c' : Chain} (passed : Passed key start sent attempts c c') : c'.length = c.length := by
  rw [← length_dumps, ← length_dumps, passed.dumps]

theorem Passed.lasting {key : String} {start sent : Nat} {attempts : List Attempt}
    {c c' : Chain} (passed : Passed key start sent attempts c c') (i : Nat) (other : String)
    (held : c.IsHeld i other) : c'.IsHeld i other :=
  (passed.marks i other).2 (.inl held)

theorem Passed.apart {key : String} {start sent : Nat} {attempts : List Attempt}
    {c c' : Chain} (passed : Passed key start sent attempts c c') (i : Nat) {other : String}
    (ne : some key ≠ some other) : c'.IsHeld i other ↔ c.IsHeld i other :=
  (passed.marks i other).trans (or_iff_left fun ⟨same, _⟩ => ne (congrArg some same.symm))

theorem orderly_perform {c : Chain} (ordered : c.HeldInOrder) (act : Act σ ε) (s : σ) :
    (act.perform c s).1.Orderly := by
  have segment (key : String) : ∃ n, c.HeldUpTo key n := ⟨_, ordered.heldUpTo key⟩
  cases act with
  | push d =>
      refine ⟨segment, ?_, ?_, ?_, nofun, ?_, nofun, nofun⟩
      · rw [show ((Act.push d : Act σ ε).perform c s).1.after = c.push d from rfl, dumps_push]
        exact List.prefix_append ..
      · exact fun i key held => (isHeld_push c d i key).2 held
      · exact fun i key _ => isHeld_push c d i key
      · rintro _ ⟨⟩
        exact ⟨rfl, dumps_push c d⟩
  | sync key send =>
      have passed := passed_sync c send key s
      refine ⟨segment, ?_, passed.lasting, fun i _ => passed.apart i, passed.linked, nofun, ?_,
        nofun⟩
      · exact passed.dumps ▸ List.prefix_rfl
      · rintro _ _ ⟨⟩
        exact ⟨_, ordered.heldUpTo key, passed⟩
  | sendAll key send =>
      have passed := passed_sendAll c send key s
      refine ⟨segment, ?_, passed.lasting, fun i _ => passed.apart i, passed.linked, nofun, nofun,
        ?_⟩
      · exact passed.dumps ▸ List.prefix_rfl
      · rintro _ _ ⟨⟩
        exact passed

/-- A pass that does not come to the end has lost the dump at which it stopped. -/
theorem Passed.lost {key : String} {start sent : Nat} {attempts : List Attempt}
    {c c' : Chain} (passed : Passed key start sent attempts c c')
    (short : start + sent < c.length) :
    ∃ a ∈ attempts, c.dumps[start + sent]? = some a.dump ∧ a.arrived = false := by
  rw [← length_pairs] at short
  have there : c.pairs[start + sent]? = some c.pairs[start + sent] :=
    List.getElem?_eq_getElem short
  rw [getElem?_pairs] at there
  obtain ⟨d, found, same⟩ := Option.map_eq_some_iff.1 there
  refine ⟨⟨c.pairs[start + sent].1, c.pairs[start + sent].2, false⟩, ?_, ?_, rfl⟩
  · rw [passed.attempts, attemptsOf, List.drop_drop]
    refine List.mem_append_right _ (List.mem_map.2 ⟨c.pairs[start + sent], ?_, rfl⟩)
    rw [List.drop_eq_getElem_cons short]
    exact List.mem_cons_self ..
  · rw [found, ← same]

/-- If nothing was lost, then all the dumps behind the start have arrived. -/
theorem Passed.all_of_arrived {key : String} {start sent : Nat} {attempts : List Attempt}
    {c c' : Chain} (passed : Passed key start sent attempts c c')
    (arrived : ∀ a ∈ attempts, a.arrived = true) : start + sent = c.length := by
  refine Nat.le_antisymm passed.within (Nat.not_lt.1 fun short => ?_)
  obtain ⟨a, mem, _, lost⟩ := passed.lost short
  rw [arrived a mem] at lost
  cases lost

theorem sync_of_nothing_pending {c : Chain} {key : String} (none : c.pendingPart key = [])
    (send : Send σ ε) (s : σ) :
    c.syncAttempts send key s = [] ∧ c.sync send key s = (0, c, s) := by
  have links := c.heldPart_append_pendingPart key
  rw [none, List.append_nil] at links
  refine ⟨?_, ?_⟩
  · rw [syncAttempts, sync, none]
    rfl
  · rw [sync, none]
    dsimp only [sendLinks]
    rw [List.append_nil, links]

/-- After a `sync` all of whose sends arrived there is nothing left to send. -/
theorem nothing_pending_of_arrived {c : Chain} {send : Send σ ε} {key : String} {s : σ}
    (ordered : c.HeldInOrder) (arrived : ∀ a ∈ c.syncAttempts send key s, a.arrived = true) :
    (c.sync send key s).2.1.pendingPart key = [] := by
  have passed := passed_sync c send key s
  have everything := passed.all_of_arrived arrived
  have ordered' := ordered.perform (.sync key send) s
  have upTo := ordered'.heldUpTo key
  have length : (c.sync send key s).2.1.links.length = c.length := passed.length_eq
  rw [← (c.sync send key s).2.1.heldPart_append_pendingPart key, List.length_append] at length
  refine List.length_eq_zero_iff.1 (Nat.eq_zero_of_not_pos fun positive => ?_)
  have last : (c.sync send key s).2.1.IsHeld ((c.sync send key s).2.1.heldPart key).length key := by
    refine (passed.marks _ key).2 ?_
    by_cases old : ((c.sync send key s).2.1.heldPart key).length < (c.heldPart key).length
    · exact .inl ((ordered.heldUpTo key _).2 old)
    · exact .inr ⟨rfl, Nat.not_lt.1 old, by omega⟩
  exact absurd ((upTo _).1 last) (Nat.lt_irrefl _)

/-! ## Chains that a target holds as a whole -/

/-- A target is known to hold every dump. -/
def IsDrained (c : Chain) (key : String) : Prop := ∀ l ∈ c.links, l.isHeldBy key = true

theorem isDrained_iff {c : Chain} {key : String} :
    c.IsDrained key ↔ ∀ i < c.length, c.IsHeld i key := by
  constructor
  · intro drained i early
    exact ⟨c.links[i], List.getElem?_eq_getElem early, drained _ (List.getElem_mem early)⟩
  · intro held l mem
    obtain ⟨i, there⟩ := List.mem_iff_getElem?.1 mem
    obtain ⟨l', found, marked⟩ := held i (List.getElem?_eq_some_iff.1 there).1
    rw [there] at found
    cases found
    exact marked

theorem Passed.isDrained {key other : String} {start sent : Nat} {attempts : List Attempt}
    {c c' : Chain} (passed : Passed key start sent attempts c c') (drained : c.IsDrained other) :
    c'.IsDrained other := by
  rw [isDrained_iff, passed.length_eq]
  exact fun i early => passed.lasting i other (isDrained_iff.1 drained i early)

/-- A `sync` either loses a dump or leaves a chain that the target holds as a whole. -/
theorem lost_or_isDrained {c : Chain} (ordered : c.HeldInOrder) (send : Send σ ε) (key : String)
    (s : σ) : (∃ a ∈ c.syncAttempts send key s, a.arrived = false) ∨
      (c.sync send key s).2.1.IsDrained key := by
  by_cases arrived : ∀ a ∈ c.syncAttempts send key s, a.arrived = true
  · right
    have none := nothing_pending_of_arrived ordered arrived
    have ordered' := ordered.perform (.sync key send) s
    have links := (c.sync send key s).2.1.heldPart_append_pendingPart key
    rw [none, List.append_nil] at links
    rw [isDrained_iff]
    intro i early
    exact (ordered'.heldUpTo key i).2 (links ▸ early)
  · left
    simpa using arrived

/-! ## Marks by dump -/

/-- Some link with this dump is marked. -/
def Marked (c : Chain) (key : String) (d : Dump) : Prop :=
  ∃ l ∈ c.links, l.dump = d ∧ l.isHeldBy key = true

theorem marked_iff {c : Chain} {key : String} {d : Dump} :
    c.Marked key d ↔ ∃ i, c.dumps[i]? = some d ∧ c.IsHeld i key := by
  constructor
  · rintro ⟨l, mem, rfl, held⟩
    obtain ⟨i, there⟩ := List.mem_iff_getElem?.1 mem
    exact ⟨i, by rw [dumps, List.getElem?_map, there]; rfl, l, there, held⟩
  · rintro ⟨i, found, l, there, held⟩
    rw [dumps, List.getElem?_map, there] at found
    exact ⟨l, List.mem_of_getElem? there, Option.some.inj found, held⟩

theorem filter_attemptsOf (todo : List (Dump × Option Dump)) (sent : Nat) :
    ((attemptsOf todo sent).filter (·.arrived)).map (fun a => (a.dump, a.before)) =
      todo.take sent := by
  rw [attemptsOf, List.filter_append, List.filter_map, List.filter_map]
  simp [Function.comp_def]

section

variable {key : String} {start sent : Nat} {attempts : List Attempt} {c c' : Chain} {d : Dump}

theorem Passed.arrived_iff (passed : Passed key start sent attempts c c') :
    (∃ a ∈ attempts, a.dump = d ∧ a.arrived = true) ↔
      ∃ i, start ≤ i ∧ i < start + sent ∧ c.dumps[i]? = some d := by
  have worked : (attempts.filter (·.arrived)).map (fun a => (a.dump, a.before)) =
      (c.pairs.drop start).take sent := by rw [passed.attempts, filter_attemptsOf]
  constructor
  · rintro ⟨a, mem, rfl, arrived⟩
    have paired : (a.dump, a.before) ∈ (c.pairs.drop start).take sent := by
      rw [← worked]
      exact List.mem_map.2 ⟨a, List.mem_filter.2 ⟨mem, arrived⟩, rfl⟩
    obtain ⟨n, there⟩ := List.mem_iff_getElem?.1 paired
    rw [List.getElem?_take, Option.ite_none_right_eq_some] at there
    obtain ⟨early, there⟩ := there
    rw [List.getElem?_drop, getElem?_pairs] at there
    obtain ⟨e, found, same⟩ := Option.map_eq_some_iff.1 there
    exact ⟨start + n, by omega, by omega, by rw [found, ← (Prod.mk.inj same).1]⟩
  · rintro ⟨i, low, high, found⟩
    have there : ((c.pairs.drop start).take sent)[i - start]? =
        some (d, if i = 0 then none else c.dumps[i - 1]?) := by
      rw [List.getElem?_take_of_lt (by omega), List.getElem?_drop, Nat.add_sub_cancel' low,
        getElem?_pairs, found]
      rfl
    have mem := List.mem_of_getElem? there
    rw [← worked] at mem
    obtain ⟨a, noted, same⟩ := List.mem_map.1 mem
    obtain ⟨mem, arrived⟩ := List.mem_filter.1 noted
    exact ⟨a, mem, (Prod.mk.inj same).1, arrived⟩

/-- After a pass those dumps are marked that were marked before or have arrived. -/
theorem Passed.marked_iff (passed : Passed key start sent attempts c c') :
    c'.Marked key d ↔ c.Marked key d ∨ ∃ a ∈ attempts, a.dump = d ∧ a.arrived = true := by
  rw [passed.arrived_iff, Chain.marked_iff, Chain.marked_iff, passed.dumps]
  constructor
  · rintro ⟨i, found, held⟩
    obtain held | ⟨_, low, high⟩ := (passed.marks i key).1 held
    · exact .inl ⟨i, found, held⟩
    · exact .inr ⟨i, low, high, found⟩
  · rintro (⟨i, found, held⟩ | ⟨i, low, high, found⟩)
    · exact ⟨i, found, passed.lasting i key held⟩
    · exact ⟨i, found, (passed.marks i key).2 (.inr ⟨rfl, low, high⟩)⟩

/-- A pass sends the dumps behind its start, unless it loses an older one of them. -/
theorem Passed.offered_or_lost (passed : Passed key start sent attempts c c') {i : Nat}
    (there : c.dumps[i]? = some d) (late : start ≤ i) :
    (∃ a ∈ attempts, a.dump = d) ∨
      ∃ e ∈ c.dumps.take i, ∃ a ∈ attempts, a.dump = e ∧ a.arrived = false := by
  by_cases early : i < start + sent
  · obtain ⟨a, mem, same, _⟩ := passed.arrived_iff.2 ⟨i, late, early, there⟩
    exact .inl ⟨a, mem, same⟩
  have within : i < c.length := c.length_dumps ▸ (List.getElem?_eq_some_iff.1 there).1
  obtain ⟨a, mem, found, lost⟩ := passed.lost (by omega)
  rcases Nat.lt_or_eq_of_le (Nat.not_lt.1 early) with behind | rfl
  · refine .inr ⟨a.dump, ?_, a, mem, rfl, lost⟩
    exact List.mem_of_getElem? ((List.getElem?_take_of_lt behind).trans found)
  · rw [there] at found
    exact .inl ⟨a, mem, (Option.some.inj found).symm⟩

end

/-! ## A whole life -/

/-- What an act that is no `sendAll` adds to the marked dumps of a target has arrived there. -/
theorem taken_perform {c : Chain} (ordered : c.HeldInOrder) {act : Act σ ε}
    (plain : act.isSendAll = false) (s : σ) {key : String} {n n' : Nat}
    (h : c.HeldUpTo key n) (h' : (act.perform c s).1.after.HeldUpTo key n') :
    (act.perform c s).1.after.pairs.take n' =
      c.pairs.take n ++ (act.perform c s).1.arrivals key := by
  cases act with
  | sendAll => cases plain
  | push d =>
      have same : n' = n := h'.unique fun i => (isHeld_push c d i key).trans (h i)
      have longer : (c.push d).pairs = c.pairs ++ [(d, c.latest?)] := by
        rw [pairs, dumps_push, pairsBehind_append, Option.or_none, ← latest?_eq]
        rfl
      rw [same, show ((Act.push d : Act σ ε).perform c s).1.after = c.push d from rfl, longer,
        List.take_append_of_le_length (by rw [length_pairs]; exact h.le_length)]
      exact (List.append_nil _).symm
  | sync key' send =>
      have passed := passed_sync c send key' s
      have pairs_eq : (c.sync send key' s).2.1.pairs = c.pairs := by
        rw [pairs, pairs, passed.dumps]
      have after : ((Act.sync key' send).perform c s).1.after = (c.sync send key' s).2.1 := rfl
      rw [after] at h' ⊢
      rw [pairs_eq]
      by_cases same : key' = key
      · subst same
        have start := h.unique (ordered.heldUpTo key')
        have stop : n' = n + (c.sync send key' s).1 := by
          refine h'.unique fun i => (passed.marks i key').trans ?_
          rw [h i, start, eq_self, true_and]
          omega
        have arrivals : ((Act.sync key' send).perform c s).1.arrivals key' =
            (c.pairs.drop n).take (c.sync send key' s).1 := by
          rw [start, ← filter_attemptsOf, ← passed.attempts]
          exact if_pos rfl
        rw [arrivals, stop, List.take_add]
      · have other : some key' ≠ some key := fun eq => same (Option.some.inj eq)
        have arrivals : ((Act.sync key' send).perform c s).1.arrivals key = [] := if_neg other
        rw [arrivals, List.append_nil, h'.unique fun i => (passed.apart i other).trans (h i)]

theorem taken_run {acts : List (Act σ ε)} (plain : ∀ a ∈ acts, a.isSendAll = false) {c : Chain}
    (ordered : c.HeldInOrder) (s : σ) {key : String} {n n' : Nat} (h : c.HeldUpTo key n)
    (h' : (run acts c s).2.HeldUpTo key n') :
    (run acts c s).2.pairs.take n' =
      c.pairs.take n ++ (run acts c s).1.flatMap (·.arrivals key) := by
  induction acts generalizing c s n with
  | nil => rw [h'.unique h, run, List.flatMap_nil, List.append_nil]
  | cons act acts ih =>
      have ordered' := ordered.perform act s
      have first := taken_perform ordered (plain act (List.mem_cons_self ..)) s h
        (ordered'.heldUpTo key)
      have rest := ih (fun a mem => plain a (List.mem_cons_of_mem _ mem)) ordered'
        (act.perform c s).2 (ordered'.heldUpTo key) h'
      refine rest.trans ?_
      rw [first, List.append_assoc]
      rfl

theorem heldInOrder_run (acts : List (Act σ ε)) {c : Chain} (ordered : c.HeldInOrder) (s : σ) :
    (run acts c s).2.HeldInOrder ∧ ∀ m ∈ (run acts c s).1, ∃ c s, c.HeldInOrder ∧
      m = (m.act.perform c s).1 := by
  induction acts generalizing c s with
  | nil => exact ⟨ordered, nofun⟩
  | cons act acts ih =>
      obtain ⟨last, moments⟩ := ih (ordered.perform act s) (act.perform c s).2
      refine ⟨last, ?_⟩
      intro m mem
      rcases List.mem_cons.1 mem with rfl | mem
      · refine ⟨c, s, ordered, ?_⟩
        cases act <;> rfl
      · exact moments m mem

/-- In the life of a chain every act is orderly, the marks of a target are on the oldest dumps
at every time, without `sendAll` the marked dumps have arrived in order and once each, and a
`sync` that lost nothing leaves nothing to send for the next one. -/
theorem sync_bookkeeping (ds : List Dump) (acts : List (Act σ ε)) (s : σ) :
    (∀ m ∈ (run acts (ofDumps ds) s).1, m.Orderly) ∧
    (∀ key, ∃ n, (run acts (ofDumps ds) s).2.HeldUpTo key n ∧
      ((∀ a ∈ acts, a.isSendAll = false) →
        (run acts (ofDumps ds) s).1.flatMap (·.arrivals key) =
          (run acts (ofDumps ds) s).2.pairs.take n)) ∧
    ∀ m ∈ (run acts (ofDumps ds) s).1, ∀ key send, m.act = .sync key send →
      (∀ a ∈ m.attempts, a.arrived = true) → ∀ (send' : Send σ ε) (s' : σ),
        m.after.syncAttempts send' key s' = [] ∧ m.after.sync send' key s' = (0, m.after, s') := by
  have ordered := heldInOrder_ofDumps ds
  obtain ⟨last, moments⟩ := heldInOrder_run acts ordered s
  refine ⟨?_, ?_, ?_⟩
  · intro m mem
    obtain ⟨c, s, ordered, same⟩ := moments m mem
    rw [same]
    exact orderly_perform ordered m.act s
  · intro key
    refine ⟨_, last.heldUpTo key, fun plain => ?_⟩
    have none : (ofDumps ds).HeldUpTo key 0 := by
      refine fun i => iff_of_false ?_ (Nat.not_lt_zero i)
      rintro ⟨l, there, held⟩
      obtain ⟨d, _, rfl⟩ := List.mem_map.1 (List.mem_of_getElem? there)
      cases held
    exact (taken_run plain ordered s none (last.heldUpTo key)).symm
  · intro m mem key send sync arrived send' s'
    obtain ⟨c, s, ordered, same⟩ := moments m mem
    rw [same, sync] at arrived ⊢
    exact sync_of_nothing_pending (nothing_pending_of_arrived ordered arrived) send' s'

/-- A sender that loses certain dumps. -/
def losing (lost : List Dump) : Send Unit Unit := fun d _ s =>
  (if d ∈ lost then .error () else .ok (), s)

def sampleActs : List (Act Unit Unit) :=
  [.sync "a" (losing [⟨.pre, 2, 1⟩]), .push ⟨.full, 3, 0⟩, .sync "b" (losing [⟨.pre, 1, 0⟩]),
    .sync "a" (losing []), .sync "a" (losing [⟨.pre, 1, 0⟩])]

/-- Three dumps reach one target in two passes, and none reaches the other one. -/
theorem sync_bookkeeping_sample :
    (∀ m ∈ (run sampleActs (ofDumps [⟨.pre, 1, 0⟩, ⟨.pre, 2, 1⟩]) ()).1, m.Orderly) ∧
      ∃ n m, (run sampleActs (ofDumps [⟨.pre, 1, 0⟩, ⟨.pre, 2, 1⟩]) ()).2.HeldUpTo "a" n ∧
        (run sampleActs (ofDumps [⟨.pre, 1, 0⟩, ⟨.pre, 2, 1⟩]) ()).2.HeldUpTo "b" m ∧
        (run sampleActs (ofDumps [⟨.pre, 1, 0⟩, ⟨.pre, 2, 1⟩]) ()).2.pairs.take n =
          [(⟨.pre, 1, 0⟩, none), (⟨.pre, 2, 1⟩, some ⟨.pre, 1, 0⟩),
            (⟨.full, 3, 0⟩, some ⟨.pre, 2, 1⟩)] ∧
        (run sampleActs (ofDumps [⟨.pre, 1, 0⟩, ⟨.pre, 2, 1⟩]) ()).2.pairs.take m = [] := by
  obtain ⟨orderly, upTo, _⟩ := sync_bookkeeping [⟨.pre, 1, 0⟩, ⟨.pre, 2, 1⟩] sampleActs ()
  obtain ⟨n, held, arrived⟩ := upTo "a"
  obtain ⟨m, held', arrived'⟩ := upTo "b"
  have plain : ∀ a ∈ sampleActs, a.isSendAll = false := by simp [sampleActs, Act.isSendAll]
  exact ⟨orderly, n, m, held, held', (arrived plain).symm, (arrived' plain).symm⟩

end LiveMigration.Chain
