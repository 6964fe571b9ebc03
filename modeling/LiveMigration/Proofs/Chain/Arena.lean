import LiveMigration.Proofs.Chain.Bookkeeping

/-!
A chain as it lies in memory. Its nodes are in an arena, each with the index of its predecessor;
the chain is gone through backwards over these indices, and a pass works off a list of indices.
Every node links back to the one right before it, whatever is done with the chain, so that all
of this comes to the same as with the list of the dumps.
-/

namespace LiveMigration.Chain

variable {σ ε : Type}

structure ArenaNode where
  link : Link
  prev : Option Nat
  deriving DecidableEq, Repr

structure Arena where
  nodes : List ArenaNode
  deriving DecidableEq, Repr

namespace Arena

def empty : Arena := ⟨[]⟩

/-- The chain that is kept in an arena. -/
def chain (a : Arena) : Chain := ⟨a.nodes.map ArenaNode.link⟩

/-- The index at which the way back begins. -/
def latest? (a : Arena) : Option Nat :=
  if a.chain.isEmpty then none else some (a.nodes.length - 1)

def push (a : Arena) (d : Dump) : Arena := ⟨a.nodes ++ [⟨⟨d, []⟩, a.latest?⟩]⟩

def ofDumps (ds : List Dump) : Arena := (withOffsets 0 ds).foldl push empty

/-- The nodes from the one at an index back to the first. An arena with `n` nodes takes `n` steps
at most. -/
def back (a : Arena) : Nat → Option Nat → List ArenaNode
  | 0, _ | _, none => []
  | fuel + 1, some i =>
    match a.nodes[i]? with
    | none => []
    | some n => n :: a.back fuel n.prev

def namesOldestFirst (a : Arena) : List String :=
  ((a.back a.nodes.length a.latest?).map (·.link.dump.name)).reverse

def mark (a : Arena) (key : String) (i : Nat) : Arena :=
  ⟨a.nodes.modify i fun n => { n with link := n.link.mark key }⟩

/-- The indices from a node back to the first one that the target holds. -/
def walkBack (a : Arena) (key : String) : Nat → Option Nat → List Nat
  | 0, _ | _, none => []
  | fuel + 1, some i =>
    match a.nodes[i]? with
    | none => []
    | some n => if n.link.isHeldBy key then [] else i :: a.walkBack key fuel n.prev

/-- Sends the nodes at some indices, each with the one that it links back to, up to the first that
is lost. -/
def transfer (send : Send σ ε) (key : String) : List Nat → Arena → σ → Nat × Arena × σ
  | [], a, s => (0, a, s)
  | i :: rest, a, s =>
    match a.nodes[i]? with
    | none => (0, a, s)
    | some n =>
      match send n.link.dump (n.prev.bind fun p => a.nodes[p]?.map (·.link.dump)) s with
      | (.ok (), s) =>
        let (sent, a, s) := transfer send key rest (a.mark key i) s
        (sent + 1, a, s)
      | (.error _, s) => (0, a, s)

def sync (a : Arena) (send : Send σ ε) (key : String) (s : σ) : Nat × Arena × σ :=
  transfer send key (a.walkBack key a.nodes.length a.latest?).reverse a s

def sendAll (a : Arena) (send : Send σ ε) (key : String) (s : σ) : Nat × Arena × σ :=
  transfer send key (List.range a.nodes.length) a s

def perform (act : Act σ ε) (a : Arena) (s : σ) : Nat × Arena × σ :=
  match act with
  | .push d => (0, a.push d, s)
  | .sync key send => a.sync send key s
  | .sendAll key send => a.sendAll send key s

/-- One act after another: the numbers that they return, and the arena in the end. -/
def run : List (Act σ ε) → Arena → σ → List Nat × Arena
  | [], a, _ => ([], a)
  | act :: acts, a, s =>
    let (sent, a, s) := a.perform act s
    let (sents, last) := run acts a s
    (sent :: sents, last)

/-- Every node links back to the one right before it, and the first one to none. -/
def Linked (a : Arena) : Prop :=
  ∀ i n, a.nodes[i]? = some n → n.prev = if i = 0 then none else some (i - 1)

/-! ## The links -/

theorem latest?_eq (a : Arena) :
    a.latest? = if a.nodes.length = 0 then none else some (a.nodes.length - 1) := by
  obtain ⟨nodes⟩ := a
  cases nodes <;> rfl

theorem chain_push (a : Arena) (d : Dump) : (a.push d).chain = a.chain.push d := by
  simp [chain, push, Chain.push]

theorem chain_ofDumps (ds : List Dump) : (ofDumps ds).chain = Chain.ofDumps ds := by
  have pushed (a : Arena) (ds : List Dump) :
      (ds.foldl push a).chain.links = a.chain.links ++ ds.map (⟨·, []⟩) := by
    induction ds generalizing a with
    | nil => exact (List.append_nil _).symm
    | cons d ds ih =>
        rw [List.foldl_cons, ih, chain_push, Chain.push, List.append_assoc]
        rfl
  exact congrArg Chain.mk (pushed empty (withOffsets 0 ds))

theorem chain_mark {a : Arena} {kept rest : List Link} {l : Link}
    (links : a.chain.links = kept ++ l :: rest) (key : String) :
    (a.mark key kept.length).chain.links = kept ++ l.mark key :: rest := by
  have marked : (a.mark key kept.length).chain.links =
      a.chain.links.modify kept.length (·.mark key) := by
    apply List.ext_getElem?
    intro i
    simp only [chain, mark, List.getElem?_map, List.getElem?_modify]
    split <;> cases a.nodes[i]? <;> rfl
  rw [marked, links]
  clear marked links
  induction kept with
  | nil => rfl
  | cons k kept ih => exact congrArg (k :: ·) ih

theorem linked_empty : empty.Linked := fun i n h => by cases h

theorem Linked.push {a : Arena} (h : a.Linked) (d : Dump) : (a.push d).Linked := by
  intro i n found
  rw [Arena.push] at found
  obtain old | ⟨rfl, rfl⟩ : a.nodes[i]? = some n ∨ i = a.nodes.length ∧
      (⟨⟨d, []⟩, a.latest?⟩ : ArenaNode) = n := by
    by_cases early : i < a.nodes.length
    · rw [List.getElem?_append_left early] at found
      exact .inl found
    · rw [List.getElem?_append_right (Nat.not_lt.1 early), List.getElem?_singleton] at found
      split at found
      · exact .inr ⟨by omega, Option.some.inj found⟩
      · cases found
  · exact h i n old
  · exact a.latest?_eq

theorem linked_ofDumps (ds : List Dump) : (ofDumps ds).Linked := by
  have pushed (a : Arena) (h : a.Linked) (ds : List Dump) : (ds.foldl Arena.push a).Linked := by
    induction ds generalizing a with
    | nil => exact h
    | cons d ds ih => exact ih (a.push d) (h.push d)
  exact pushed empty linked_empty (withOffsets 0 ds)

theorem Linked.mark {a : Arena} (h : a.Linked) (key : String) (i : Nat) :
    (a.mark key i).Linked := by
  intro j n found
  rw [Arena.mark, List.getElem?_modify] at found
  obtain ⟨m, there, rfl⟩ := Option.map_eq_some_iff.1 found
  have same : (if i = j then { m with link := m.link.mark key } else m).prev = m.prev := by
    split <;> rfl
  exact same.trans (h j m there)

theorem Linked.back_eq {a : Arena} (h : a.Linked) {n : Nat} (le : n ≤ a.nodes.length) :
    a.back n (if n = 0 then none else some (n - 1)) = (a.nodes.take n).reverse := by
  induction n with
  | zero => rfl
  | succ n ih =>
      obtain ⟨m, there⟩ : ∃ m, a.nodes[n]? = some m := ⟨_, List.getElem?_eq_getElem le⟩
      rw [if_neg (Nat.succ_ne_zero n), Nat.add_sub_cancel, back, List.take_add_one, there]
      dsimp only
      rw [h n m there, ih (Nat.le_of_succ_le le)]
      exact List.reverse_concat.symm

/-- The names told over the links are those of the dumps in the chain. -/
theorem Linked.names {a : Arena} (h : a.Linked) : a.namesOldestFirst = a.chain.names := by
  have all : a.back a.nodes.length a.latest? = a.nodes.reverse := by
    rw [a.latest?_eq, h.back_eq (Nat.le_refl _), List.take_length]
  rw [namesOldestFirst, all, List.map_reverse, List.reverse_reverse, Chain.names, Chain.dumps,
    chain, List.map_map, List.map_map]
  rfl

/-! ## The passes -/

/-- The predecessor of a node is the dump before it in the chain. -/
theorem Linked.predecessor {a : Arena} (h : a.Linked) {kept rest : List Link} {l : Link}
    (links : a.chain.links = kept ++ l :: rest) :
    ∃ n, a.nodes[kept.length]? = some n ∧ n.link = l ∧
      (n.prev.bind fun p => a.nodes[p]?.map (·.link.dump)) = kept.getLast?.map Link.dump := by
  have found (i : Nat) : a.nodes[i]?.map ArenaNode.link = (kept ++ l :: rest)[i]? := by
    rw [← links, chain, List.getElem?_map]
  obtain ⟨n, there, link⟩ : ∃ n, a.nodes[kept.length]? = some n ∧ n.link = l := by
    have here := found kept.length
    rw [List.getElem?_append_right (Nat.le_refl _), Nat.sub_self] at here
    exact Option.map_eq_some_iff.1 here
  refine ⟨n, there, link, ?_⟩
  rw [h _ n there]
  cases before : kept.getLast? with
  | none =>
      rw [List.getLast?_eq_none_iff.1 before]
      rfl
  | some last =>
      obtain ⟨front, rfl⟩ := List.getLast?_eq_some_iff.1 before
      have earlier := found front.length
      rw [List.append_assoc, List.getElem?_append_right (Nat.le_refl _), Nat.sub_self] at earlier
      obtain ⟨m, there', link'⟩ := Option.map_eq_some_iff.1 earlier
      rw [List.length_append, List.length_singleton, if_neg (Nat.succ_ne_zero _),
        Nat.add_sub_cancel, Option.bind_some, there', ← link']
      rfl

/-- A pass over an arena and one over a list come to the same. -/
structure Matches (r : Nat × Arena × σ) (p : Nat × Chain × σ) : Prop where
  sent : r.1 = p.1
  chain : r.2.1.chain = p.2.1
  state : r.2.2 = p.2.2
  linked : r.2.1.Linked

/-- A pass over the nodes from a place on. -/
theorem matches_transfer (send : Send σ ε) (key : String) (kept : List Link) {rest : List Link}
    {a : Arena} (h : a.Linked) (links : a.chain.links = kept ++ rest) (s : σ) :
    let pass := sendLinks send key (kept.getLast?.map Link.dump) rest s
    Matches (transfer send key (List.range' kept.length rest.length) a s)
      (pass.sent, ⟨kept ++ pass.links⟩, pass.state) := by
  induction rest generalizing kept a s with
  | nil => exact ⟨rfl, congrArg Chain.mk links, rfl, h⟩
  | cons l rest ih =>
      obtain ⟨n, there, rfl, before⟩ := h.predecessor links
      rw [List.length_cons, List.range'_succ, transfer, there, sendLinks]
      dsimp only
      rw [before]
      cases send n.link.dump (kept.getLast?.map Link.dump) s with
      | mk result state =>
          cases result with
          | error => exact ⟨rfl, congrArg Chain.mk links, rfl, h⟩
          | ok =>
              have marked := chain_mark links key
              rw [List.append_cons] at marked
              have rest := ih _ (h.mark key kept.length) marked state
              rw [List.getLast?_concat, Option.map_some, dump_mark, List.length_append,
                List.length_singleton] at rest
              refine ⟨congrArg (· + 1) rest.sent, ?_, rest.state, rest.linked⟩
              rw [List.append_cons]
              exact rest.chain

/-- The way back over the links goes through the dumps that are still to be sent. -/
theorem Linked.walkBack_eq {a : Arena} (h : a.Linked) (key : String) {n : Nat}
    (le : n ≤ a.nodes.length) :
    let pending := (a.chain.links.take n).reverse.takeWhile (!·.isHeldBy key)
    a.walkBack key n (if n = 0 then none else some (n - 1)) =
        (List.range' (n - pending.length) pending.length).reverse ∧ pending.length ≤ n := by
  induction n with
  | zero => exact ⟨rfl, Nat.le_refl 0⟩
  | succ n ih =>
      obtain ⟨walked, few⟩ := ih (Nat.le_of_succ_le le)
      obtain ⟨m, there⟩ : ∃ m, a.nodes[n]? = some m := ⟨_, List.getElem?_eq_getElem le⟩
      have last : a.chain.links.take (n + 1) = a.chain.links.take n ++ [m.link] := by
        rw [List.take_add_one, chain, List.getElem?_map, there]
        rfl
      rw [last, List.reverse_concat, if_neg (Nat.succ_ne_zero n), Nat.add_sub_cancel, walkBack,
        there]
      dsimp only
      cases held : m.link.isHeldBy key with
      | true =>
          rw [List.takeWhile_cons_of_neg (by simp [held])]
          exact ⟨rfl, Nat.zero_le _⟩
      | false =>
          rw [List.takeWhile_cons_of_pos (by simp [held]), List.length_cons, h n m there, walked]
          refine ⟨?_, Nat.succ_le_succ few⟩
          rw [Nat.add_sub_add_right, List.range'_1_concat, List.reverse_concat,
            Nat.sub_add_cancel few]
          rfl

theorem matches_sync {a : Arena} (h : a.Linked) (send : Send σ ε) (key : String) (s : σ) :
    Matches (a.sync send key s) (a.chain.sync send key s) := by
  have length : a.nodes.length = a.chain.links.length := (List.length_map ..).symm
  have parts := a.chain.heldPart_append_pendingPart key
  have pending : ((a.chain.links.take a.nodes.length).reverse.takeWhile
      (!·.isHeldBy key)).length = (a.chain.pendingPart key).length := by
    rw [length, List.take_length, pendingPart, List.length_reverse]
  have kept : a.nodes.length - (a.chain.pendingPart key).length =
      (a.chain.heldPart key).length := by
    rw [length, ← parts, List.length_append, Nat.add_sub_cancel]
  obtain ⟨walked, -⟩ := h.walkBack_eq key (Nat.le_refl _)
  rw [pending, kept] at walked
  rw [sync, a.latest?_eq, walked, List.reverse_reverse]
  exact matches_transfer send key _ h parts.symm s

theorem matches_sendAll {a : Arena} (h : a.Linked) (send : Send σ ε) (key : String) (s : σ) :
    Matches (a.sendAll send key s) (a.chain.sendAll send key s) := by
  have length : a.nodes.length = a.chain.links.length := (List.length_map ..).symm
  rw [sendAll, length, List.range_eq_range']
  exact matches_transfer send key [] h rfl s

theorem matches_perform (act : Act σ ε) {a : Arena} (h : a.Linked) (s : σ) :
    Matches (a.perform act s) ((act.perform a.chain s).1.sent, (act.perform a.chain s).1.after,
      (act.perform a.chain s).2) := by
  cases act with
  | push d => exact ⟨rfl, chain_push a d, rfl, h.push d⟩
  | sync key send => exact matches_sync h send key s
  | sendAll key send => exact matches_sendAll h send key s

/-- Whatever is done with a chain in memory, every node links back to the one right before it, and
the numbers returned, the marks and the names are those of the list of the dumps. -/
theorem linked_run (ds : List Dump) (acts : List (Act σ ε)) (s : σ) :
    let (sents, last) := run acts (ofDumps ds) s
    let (passes, chain) := Chain.run acts (Chain.ofDumps ds) s
    last.Linked ∧ sents = passes.map (·.sent) ∧ last.chain = chain ∧
      last.namesOldestFirst = chain.names := by
  rw [← chain_ofDumps]
  have linked := linked_ofDumps ds
  generalize ofDumps ds = a at linked
  induction acts generalizing a s with
  | nil => exact ⟨linked, rfl, rfl, linked.names⟩
  | cons act acts ih =>
      obtain ⟨sent, chain, state, linked⟩ := matches_perform act linked s
      obtain ⟨linked, sents, last, names⟩ := ih (a.perform act s).2.2 (a.perform act s).2.1 linked
      rw [run, Chain.run]
      dsimp only at sent chain state sents last names ⊢
      rw [← state, ← chain]
      exact ⟨linked, List.cons_eq_cons.2 ⟨sent, sents⟩, last, names⟩

end Arena

end LiveMigration.Chain
