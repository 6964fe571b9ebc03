import LiveMigration.Proofs.Json.RoundTrip

/-!
Texts that are cut short. A container is complete only at its closing bracket, so if a text is
a complete container and nothing else, then its last token is a closing bracket and no longer
text begins with it, except for blanks. The text of a written record ends in a brace, hence no
proper part at its front is a complete container.
-/

namespace LiveMigration.Json

/-! ## Reading a text in two parts -/

/-- The tokens that are complete at the end of a text, whatever may follow it. -/
def emitted (reading : Reading) : Bytes → List Token
  | [] => []
  | b :: rest => (step reading b).1 ++ emitted (step reading b).2 rest

/-- What the reader is in the middle of behind a text. -/
def readingAfter (reading : Reading) : Bytes → Reading
  | [] => reading
  | b :: rest => readingAfter (step reading b).2 rest

theorem tokensFrom_append (reading : Reading) (front rest : Bytes) :
    tokensFrom reading (front ++ rest) =
      emitted reading front ++ tokensFrom (readingAfter reading front) rest := by
  induction front generalizing reading with
  | nil => rfl
  | cons b front ih =>
      rw [List.cons_append, tokensFrom, ih, emitted, readingAfter, List.append_assoc]

theorem tokensFrom_eq (reading : Reading) (text : Bytes) :
    tokensFrom reading text = emitted reading text ++ finish (readingAfter reading text) := by
  have read := tokensFrom_append reading text []
  rwa [List.append_nil] at read

theorem broken_of_beginToken (b : UInt8) (h : (beginToken b).2 = .dead) :
    Token.broken ∈ (beginToken b).1 := by
  have all : ∀ n < 256, (beginToken (UInt8.ofNat n)).2 = .dead →
      Token.broken ∈ (beginToken (UInt8.ofNat n)).1 := by decide +kernel
  rw [← UInt8.ofNat_toNat (x := b)] at h ⊢
  exact all b.toNat b.toNat_lt h

theorem takeUnit_ne_dead (spelled : Bytes) (high : Option Nat) (ok : Bool) (unit : Nat) :
    takeUnit spelled high ok unit ≠ .dead := by
  unfold takeUnit
  grind

/-- The reader gives up nowhere but at a token that says so. -/
theorem broken_of_step {reading : Reading} {b : UInt8} (h : (step reading b).2 = .dead) :
    reading = .dead ∨ Token.broken ∈ (step reading b).1 := by
  cases reading with
  | dead => exact .inl rfl
  | between => exact .inr (broken_of_beginToken b h)
  | word rest token =>
      right
      rcases rest with _ | ⟨c, rest⟩
      · exact List.mem_cons_of_mem _ (broken_of_beginToken b h)
      · simp only [step] at h ⊢
        grind
  | string spelled high ok =>
      simp only [step] at h ⊢
      grind
  | escape spelled high ok =>
      simp only [step] at h ⊢
      grind
  | unicode spelled high ok digits value =>
      have going := takeUnit_ne_dead spelled high ok
      simp only [step] at h ⊢
      grind
  | number part x =>
      right
      simp only [step] at h ⊢
      split at h
      · cases h
      · simp
      · exact List.mem_cons_of_mem _ (broken_of_beginToken b h)

theorem broken_of_readingAfter {reading : Reading} {text : Bytes}
    (h : readingAfter reading text = .dead) :
    reading = .dead ∨ Token.broken ∈ emitted reading text := by
  induction text generalizing reading with
  | nil => exact .inl h
  | cons b text ih =>
      rw [readingAfter] at h
      rw [emitted, List.mem_append]
      rcases ih h with dead | broken
      · exact (broken_of_step dead).imp_right .inl
      · exact .inr (.inr broken)

def Token.closes : Token → Bool
  | .closeBrace | .closeBracket => true
  | _ => false

/-- What is due at the end of a text is one token at most, and never a closing one. -/
theorem finish_cases (reading : Reading) :
    finish reading = [] ∧ (reading = .between ∨ reading = .dead) ∨
      ∃ t, finish reading = [t] ∧ t.closes = false := by
  cases reading with
  | between => exact .inl ⟨rfl, .inl rfl⟩
  | dead => exact .inl ⟨rfl, .inr rfl⟩
  | word | string | escape | unicode => exact .inr ⟨_, rfl, rfl⟩
  | number part x =>
      right
      simp only [finish]
      split <;> exact ⟨_, rfl, rfl⟩

/-- A brace closes something or breaks something, wherever it stands. -/
theorem tokensFrom_brace_ne_nil {reading : Reading} (alive : reading ≠ .dead) :
    tokensFrom reading [0x7D] ≠ [] := by
  rw [tokensFrom, tokensFrom]
  intro none
  obtain ⟨silent, ended⟩ := List.append_eq_nil_iff.1 none
  rcases finish_cases (step reading 0x7D).2 with ⟨_, between | dead⟩ | ⟨t, single, _⟩
  · cases reading with
    | dead => exact alive rfl
    | between => cases silent
    | word rest token =>
        rcases rest with _ | ⟨c, rest⟩
        · cases silent
        · simp only [step] at silent between
          grind
    | string => simp [step] at between
    | escape => cases silent
    | unicode => cases silent
    | number part x =>
        simp only [step] at silent between
        grind
  · rcases broken_of_step dead with h | broken
    · exact alive h
    · rw [silent] at broken
      cases broken
  · rw [single] at ended
    cases ended

/-- So a text that ends in a brace has a token, unless the reader has given up before. -/
theorem tokensFrom_text_brace_ne_nil {reading : Reading} (alive : reading ≠ .dead)
    (text : Bytes) : tokensFrom reading (text ++ [0x7D]) ≠ [] := by
  rw [tokensFrom_append]
  intro none
  obtain ⟨silent, last⟩ := List.append_eq_nil_iff.1 none
  refine tokensFrom_brace_ne_nil (fun dead => ?_) last
  rcases broken_of_readingAfter dead with h | broken
  · exact alive h
  · rw [silent] at broken
    cases broken

/-! ## Complete containers -/

def Tree.isComplete : Tree → Bool
  | .array _ whole | .object _ whole => whole
  | _ => false

theorem abandon_incomplete (frames : List Frame) (found : Option Tree)
    (h : ∀ t ∈ found, t.isComplete = false) : (abandon frames found).isComplete = false := by
  induction frames generalizing found with
  | nil =>
      cases found with
      | none => rfl
      | some t => exact h t rfl
  | cons frame outer ih =>
      rcases frame with done | ⟨done, _ | key⟩ <;> refine ih _ ?_ <;> rintro _ ⟨⟩ <;> rfl

theorem leaf_incomplete {t : Token} {v : Tree} (h : t.leaf? = some v) :
    v.isComplete = false := by
  cases t <;> cases h <;> rfl

theorem eq_of_ofPlaced_done {placed : List Frame ⊕ Tree} {v : Tree}
    (h : Move.ofPlaced placed = .done v) : placed = .inr v := by
  rcases placed with frames | w <;> cases h
  rfl

theorem beginValue_incomplete {t : Token} {frames : List Frame} {v : Tree}
    (h : beginValue t frames = .done v) : v.isComplete = false := by
  unfold beginValue at h
  split at h
  · cases h
  · cases h
  split at h
  · rename_i leaf
    have placed := eq_of_ofPlaced_done h
    rcases frames with _ | ⟨done | ⟨done, _ | key⟩, outer⟩ <;> cases placed
    exact leaf_incomplete leaf
  · cases h

theorem beginKey_not_done {t : Token} {frames : List Frame} {v : Tree} :
    beginKey t frames ≠ .done v := by
  unfold beginKey
  split <;> nofun

/-- Only a closing bracket completes a container. -/
theorem closes_of_move {expecting : Expecting} {t : Token} {frames : List Frame} {v : Tree}
    (h : move expecting t frames = .done v) (complete : v.isComplete = true) :
    t.closes = true := by
  unfold move at h
  split at h
  · simp [beginValue_incomplete h] at complete
  · rfl
  · simp [beginValue_incomplete h] at complete
  · rfl
  · exact absurd h beginKey_not_done
  · exact absurd h beginKey_not_done
  · cases h
  · cases h
  · cases h
  · cases h
  · rfl
  · rfl
  · cases h

theorem move_broken (expecting : Expecting) (frames : List Frame) :
    move expecting .broken frames = .stuck := by
  cases expecting <;> rfl

/-- A complete container ends at a closing bracket, and what follows there is left alone. -/
theorem build_complete {expecting : Expecting} {frames : List Frame} {ts : List Token}
    (complete : (build expecting frames ts).1.isComplete = true) :
    ∃ front last, last.closes = true ∧ Token.broken ∉ front ∧
      ts = front ++ last :: (build expecting frames ts).2 ∧
      ∀ more, build expecting frames (front ++ last :: more) =
        ((build expecting frames ts).1, more) := by
  have incomplete (frames : List Frame) := abandon_incomplete frames none (by simp)
  induction ts generalizing expecting frames with
  | nil =>
      rw [build, incomplete] at complete
      cases complete
  | cons t ts ih =>
      cases moved : move expecting t frames with
      | go expecting' frames' =>
          have same (ts : List Token) : build expecting frames (t :: ts) =
              build expecting' frames' ts := by rw [build, moved]
          rw [same] at complete ⊢
          obtain ⟨front, last, closes, whole, all, stays⟩ := ih complete
          refine ⟨t :: front, last, closes, ?_, congrArg (t :: ·) all, ?_⟩
          · rw [List.mem_cons, not_or]
            refine ⟨?_, whole⟩
            rintro rfl
            rw [move_broken] at moved
            cases moved
          · intro more
            rw [List.cons_append, same, stays]
      | done v =>
          have same (ts : List Token) : build expecting frames (t :: ts) = (v, ts) := by
            rw [build, moved]
          rw [same] at complete ⊢
          exact ⟨[], t, closes_of_move moved complete, List.not_mem_nil, rfl, same⟩
      | stuck =>
          rw [build, moved, incomplete] at complete
          cases complete

/-- A closing bracket is read at once, before it is known whether the text ends there. -/
theorem emitted_of_closes {text : Bytes} {ts : List Token} {last : Token}
    (h : tokens text = ts ++ [last]) (closes : last.closes = true) :
    emitted .between text = ts ++ [last] := by
  rw [tokens, tokensFrom_eq] at h
  rcases finish_cases (readingAfter .between text) with ⟨nothing, _⟩ | ⟨t, single, inner⟩
  · rwa [nothing, List.append_nil] at h
  · rw [single] at h
    obtain ⟨_, same⟩ := List.append_inj' h rfl
    rw [List.singleton_inj.1 same, closes] at inner
    cases inner

/-- No proper part at the front of a written value that ends in a brace is a complete container
and nothing else. -/
theorem cut_incomplete {t : Tree} (plain : t.isPlain = true) {front rest : Bytes}
    (h : write t = front ++ (rest ++ [0x7D])) (ends : (Document.ofBytes front).ends = true) :
    (Document.ofBytes front).tree.isComplete = false := by
  rw [Bool.eq_false_iff]
  intro complete
  have nothing : (build .value [] (tokens front)).2 = [] := List.isEmpty_iff.1 ends
  obtain ⟨ts, last, closes, whole, all, stays⟩ := build_complete complete
  rw [nothing] at all
  have said := emitted_of_closes all closes
  have alive : readingAfter .between front ≠ .dead := by
    intro dead
    rcases broken_of_readingAfter dead with impossible | broken
    · cases impossible
    rw [said, List.mem_append, List.mem_singleton] at broken
    rcases broken with inner | rfl
    · exact whole inner
    · cases closes
  -- The whole text is the same value, with the tokens of the rest behind it.
  have document := ofBytes_write plain
  have split : tokens (write t) =
      ts ++ last :: tokensFrom (readingAfter .between front) (rest ++ [0x7D]) := by
    rw [h, tokens, tokensFrom_append, said, List.append_assoc]
    rfl
  have all : (Document.ofBytes (write t)).ends = true := by rw [document]
  unfold Document.ofBytes at all
  rw [split, stays] at all
  exact tokensFrom_text_brace_ne_nil alive rest (List.isEmpty_iff.1 all)

end LiveMigration.Json
