import LiveMigration.Json.Decode
import LiveMigration.Proofs.Json.Lexing

/-!
Writing a value and reading it back. A value is plain if all its strings are texts, all its
numbers are integers in range and all its containers are whole; such a value is read back as
it is, and so whatever is decoded from its text is decoded from the value itself.
-/

namespace LiveMigration.Json

mutual

/-- The values that can be written without loss. -/
def Tree.isPlain : Tree → Bool
  | .null | .bool _ | .string (some _) => true
  | .number (.natural n) => decide (n < UInt64.size)
  | .array items whole => whole && plainItems items
  | .object members whole => whole && plainMembers members
  | _ => false

def plainItems : List Tree → Bool
  | [] => true
  | v :: rest => v.isPlain && plainItems rest

def plainMembers : List (Option String × Tree) → Bool
  | [] => true
  | (key, v) :: rest => key.isSome && v.isPlain && plainMembers rest

end

mutual

def tokensOf : Tree → List Token
  | .null => [.null]
  | .bool b => [.bool b]
  | .number n => [.number n]
  | .string s => [.string s]
  | .array items _ => .openBracket :: tokensOfItems items ++ [.closeBracket]
  | .object members _ => .openBrace :: tokensOfMembers members ++ [.closeBrace]
  | .broken => []

def tokensOfItems : List Tree → List Token
  | [] => []
  | [v] => tokensOf v
  | v :: rest => tokensOf v ++ .comma :: tokensOfItems rest

def tokensOfMembers : List (Option String × Tree) → List Token
  | [] => []
  | [(key, v)] => .string key :: .colon :: tokensOf v
  | (key, v) :: rest => .string key :: .colon :: tokensOf v ++ .comma :: tokensOfMembers rest

end

theorem writeItems_cons_cons (v w : Tree) (more : List Tree) :
    writeItems (v :: w :: more) = write v ++ 0x2C :: writeItems (w :: more) := by
  simp [writeItems]

theorem writeMembers_cons_cons (key : Option String) (v : Tree) (w : Option String × Tree)
    (more : List (Option String × Tree)) :
    writeMembers ((key, v) :: w :: more) =
      quote (Bytes.ofText (key.getD "")) ++
        0x3A :: (write v ++ 0x2C :: writeMembers (w :: more)) := by
  simp [writeMembers]

theorem tokensOfItems_cons_cons (v w : Tree) (more : List Tree) :
    tokensOfItems (v :: w :: more) = tokensOf v ++ .comma :: tokensOfItems (w :: more) := by
  simp [tokensOfItems]

theorem tokensOfMembers_cons_cons (key : Option String) (v : Tree) (w : Option String × Tree)
    (more : List (Option String × Tree)) :
    tokensOfMembers ((key, v) :: w :: more) =
      .string key :: .colon :: (tokensOf v ++ .comma :: tokensOfMembers (w :: more)) := by
  simp [tokensOfMembers]

/-! ## Reading the tokens -/

theorem tokensFrom_colon (rest : Bytes) :
    tokensFrom .between (0x3A :: rest) = .colon :: tokensFrom .between rest := rfl

theorem tokensFrom_comma (rest : Bytes) :
    tokensFrom .between (0x2C :: rest) = .comma :: tokensFrom .between rest := rfl

mutual

theorem tokensFrom_write (t : Tree) (plain : t.isPlain = true) {rest : Bytes}
    (h : Delimited rest) :
    tokensFrom .between (write t ++ rest) = tokensOf t ++ tokensFrom .between rest := by
  match t with
  | .null => rfl
  | .bool true => rfl
  | .bool false => rfl
  | .number (.natural n) =>
      have small : n < UInt64.size := by simpa [Tree.isPlain] using plain
      exact tokensFrom_writeNatural small h
  | .string (some s) => exact tokensFrom_quote s rest
  | .array items whole =>
      rw [Tree.isPlain, Bool.and_eq_true] at plain
      have inner := tokensFrom_writeItems items plain.2 (delimited_cons (b := 0x5D) rfl rest)
      rw [write, tokensOf, List.append_assoc, List.append_assoc]
      exact congrArg (Token.openBracket :: ·) inner
  | .object members whole =>
      rw [Tree.isPlain, Bool.and_eq_true] at plain
      have inner := tokensFrom_writeMembers members plain.2 (delimited_cons (b := 0x7D) rfl rest)
      rw [write, tokensOf, List.append_assoc, List.append_assoc]
      exact congrArg (Token.openBrace :: ·) inner

theorem tokensFrom_writeItems (items : List Tree) (plain : plainItems items = true)
    {rest : Bytes} (h : Delimited rest) :
    tokensFrom .between (writeItems items ++ rest) =
      tokensOfItems items ++ tokensFrom .between rest := by
  match items with
  | [] => rfl
  | [v] =>
      rw [plainItems, Bool.and_eq_true] at plain
      exact tokensFrom_write v plain.1 h
  | v :: w :: more =>
      rw [plainItems, Bool.and_eq_true] at plain
      have behind := tokensFrom_writeItems (w :: more) plain.2 h
      have first := tokensFrom_write v plain.1
        (delimited_cons (b := 0x2C) rfl (writeItems (w :: more) ++ rest))
      rw [writeItems_cons_cons, tokensOfItems_cons_cons, List.append_assoc, List.cons_append,
        first, tokensFrom_comma, behind]
      simp only [List.cons_append, List.append_assoc]

theorem tokensFrom_writeMembers (members : List (Option String × Tree))
    (plain : plainMembers members = true) {rest : Bytes} (h : Delimited rest) :
    tokensFrom .between (writeMembers members ++ rest) =
      tokensOfMembers members ++ tokensFrom .between rest := by
  match members with
  | [] => rfl
  | [(some key, v)] =>
      rw [plainMembers, Bool.and_eq_true, Bool.and_eq_true] at plain
      have value := tokensFrom_write v plain.1.2 h
      rw [writeMembers, tokensOfMembers, List.append_assoc, Option.getD_some, tokensFrom_quote]
      exact congrArg (Token.string (some key) :: Token.colon :: ·) value
  | (some key, v) :: w :: more =>
      rw [plainMembers, Bool.and_eq_true, Bool.and_eq_true] at plain
      have behind := tokensFrom_writeMembers (w :: more) plain.2 h
      have value := tokensFrom_write v plain.1.2
        (delimited_cons (b := 0x2C) rfl (writeMembers (w :: more) ++ rest))
      rw [writeMembers_cons_cons, tokensOfMembers_cons_cons, Option.getD_some, List.append_assoc,
        List.cons_append, tokensFrom_quote, tokensFrom_colon, List.append_assoc,
        List.cons_append, value, tokensFrom_comma, behind]
      simp only [List.cons_append, List.append_assoc]

end

/-! ## Building the value -/

/-- Goes on behind a value that is complete. -/
def resume (placed : List Frame ⊕ Tree) (rest : List Token) : Tree × List Token :=
  match placed with
  | .inl frames => build .commaOrEnd frames rest
  | .inr v => (v, rest)

theorem build_ofPlaced {expecting : Expecting} {t : Token} {frames : List Frame}
    {placed : List Frame ⊕ Tree} (h : move expecting t frames = .ofPlaced placed)
    (rest : List Token) : build expecting frames (t :: rest) = resume placed rest := by
  rw [build, h]
  cases placed <;> rfl

def startsValue (expecting : Expecting) : Bool :=
  expecting = .value || expecting = .valueOrEnd

def startsKey (expecting : Expecting) : Bool :=
  expecting = .key || expecting = .keyOrEnd

theorem build_key {expecting : Expecting} (starts : startsKey expecting = true)
    (key : Option String) (done : List (Option String × Tree)) (outer : List Frame)
    (rest : List Token) :
    build expecting (.object done none :: outer) (.string key :: .colon :: rest) =
      build .value (.object done (some key) :: outer) rest := by
  cases expecting <;> cases starts <;> rfl

theorem move_leaf {expecting : Expecting} (starts : startsValue expecting = true) {t : Token}
    {v : Tree} (leaf : t.leaf? = some v) (frames : List Frame) :
    move expecting t frames = .ofPlaced (place v frames) := by
  cases expecting <;> cases starts <;> cases t <;> cases leaf <;> rfl

mutual

theorem build_tokensOf (t : Tree) (plain : t.isPlain = true) {expecting : Expecting}
    (starts : startsValue expecting = true) (frames : List Frame) (rest : List Token) :
    build expecting frames (tokensOf t ++ rest) = resume (place t frames) rest := by
  match t with
  | .null => exact build_ofPlaced (move_leaf starts rfl frames) rest
  | .bool b => exact build_ofPlaced (move_leaf starts rfl frames) rest
  | .number (.natural n) => exact build_ofPlaced (move_leaf starts rfl frames) rest
  | .string (some s) => exact build_ofPlaced (move_leaf starts rfl frames) rest
  | .array [] true => cases expecting <;> cases starts <;> exact build_ofPlaced rfl rest
  | .array (v :: more) true =>
      have inner := build_tokensOfItems (v :: more) nofun (by simpa [Tree.isPlain] using plain)
        (show startsValue .valueOrEnd = true from rfl) [] frames rest
      rw [tokensOf, List.append_assoc]
      rw [List.reverse_nil, List.nil_append] at inner
      rw [← inner]
      cases expecting <;> cases starts <;> rfl
  | .object [] true => cases expecting <;> cases starts <;> exact build_ofPlaced rfl rest
  | .object (m :: more) true =>
      have inner := build_tokensOfMembers (m :: more) nofun (by simpa [Tree.isPlain] using plain)
        (show startsKey .keyOrEnd = true from rfl) [] frames rest
      rw [tokensOf, List.append_assoc]
      rw [List.reverse_nil, List.nil_append] at inner
      rw [← inner]
      cases expecting <;> cases starts <;> rfl

theorem build_tokensOfItems (items : List Tree) (nonempty : items ≠ [])
    (plain : plainItems items = true) {expecting : Expecting}
    (starts : startsValue expecting = true) (done : List Tree) (outer : List Frame)
    (rest : List Token) :
    build expecting (.array done :: outer) (tokensOfItems items ++ .closeBracket :: rest) =
      resume (place (.array (done.reverse ++ items) true) outer) rest := by
  match items with
  | [] => exact absurd rfl nonempty
  | [v] =>
      rw [plainItems, Bool.and_eq_true] at plain
      have first := build_tokensOf v plain.1 starts (.array done :: outer) (.closeBracket :: rest)
      have close : resume (.inl (.array (v :: done) :: outer)) (.closeBracket :: rest) =
          resume (place (.array (v :: done).reverse true) outer) rest := build_ofPlaced rfl rest
      rw [List.reverse_cons] at close
      rw [tokensOfItems, first]
      exact close
  | v :: w :: more =>
      rw [plainItems, Bool.and_eq_true] at plain
      have first := build_tokensOf v plain.1 starts (.array done :: outer)
        (.comma :: (tokensOfItems (w :: more) ++ .closeBracket :: rest))
      have behind := build_tokensOfItems (w :: more) nofun plain.2
        (show startsValue .value = true from rfl) (v :: done) outer rest
      rw [List.reverse_cons, List.append_assoc] at behind
      rw [tokensOfItems_cons_cons, List.append_assoc, List.cons_append, first]
      exact behind

theorem build_tokensOfMembers (members : List (Option String × Tree)) (nonempty : members ≠ [])
    (plain : plainMembers members = true) {expecting : Expecting}
    (starts : startsKey expecting = true) (done : List (Option String × Tree))
    (outer : List Frame) (rest : List Token) :
    build expecting (.object done none :: outer)
        (tokensOfMembers members ++ .closeBrace :: rest) =
      resume (place (.object (done.reverse ++ members) true) outer) rest := by
  match members with
  | [] => exact absurd rfl nonempty
  | [(key, v)] =>
      rw [plainMembers, Bool.and_eq_true, Bool.and_eq_true] at plain
      have value := build_tokensOf v plain.1.2 (show startsValue .value = true from rfl)
        (.object done (some key) :: outer) (.closeBrace :: rest)
      have close : resume (.inl (.object ((key, v) :: done) none :: outer)) (.closeBrace :: rest) =
          resume (place (.object ((key, v) :: done).reverse true) outer) rest :=
        build_ofPlaced rfl rest
      rw [List.reverse_cons] at close
      rw [tokensOfMembers, List.cons_append, List.cons_append, build_key starts, value]
      exact close
  | (key, v) :: w :: more =>
      rw [plainMembers, Bool.and_eq_true, Bool.and_eq_true] at plain
      have value := build_tokensOf v plain.1.2 (show startsValue .value = true from rfl)
        (.object done (some key) :: outer)
        (.comma :: (tokensOfMembers (w :: more) ++ .closeBrace :: rest))
      have behind := build_tokensOfMembers (w :: more) nofun plain.2
        (show startsKey .key = true from rfl) ((key, v) :: done) outer rest
      rw [List.reverse_cons, List.append_assoc] at behind
      rw [tokensOfMembers_cons_cons, List.cons_append, List.cons_append, build_key starts,
        List.append_assoc, List.cons_append, value]
      exact behind

end

/-- A plain value is read back as it is. -/
theorem ofBytes_write {t : Tree} (plain : t.isPlain = true) :
    Document.ofBytes (write t) = ⟨t, true⟩ := by
  have read := tokensFrom_write t plain delimited_nil
  rw [List.append_nil] at read
  have built := build_tokensOf t plain (show startsValue .value = true from rfl) [] []
  unfold Document.ofBytes tokens
  rw [read]
  change Document.mk (build .value [] (tokensOf t ++ [])).1
    (build .value [] (tokensOf t ++ [])).2.isEmpty = _
  rw [built]
  rfl

theorem decodeText_write {α : Type} (decode : Tree → Decoded α) {t : Tree}
    (plain : t.isPlain = true) : decodeText decode (write t) = decode t := by
  unfold decodeText
  rw [ofBytes_write plain]
  cases h : decode t <;> simp [h, bind, Except.bind]

end LiveMigration.Json
