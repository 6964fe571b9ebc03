import LiveMigration.Target

/-!
When two targets have the same key. A port is written in digits, so the last colon of an address
stands between host and port, whatever colons and brackets the host is made of. Hosts are written
alike only if they are the same text, or if one of them is the other one in brackets.
-/

namespace LiveMigration

namespace Port

theorem toList_toText (p : Port) : p.toText.toList = Nat.toDigits 10 p.number.toNat := by
  simp [toText, Nat.toString_eq_repr]

theorem colon_notMem_toText (p : Port) : ':' ∉ p.toText.toList := by
  intro mem
  rw [toList_toText] at mem
  have digit := Nat.isDigit_of_mem_toDigits (by decide) (by decide) mem
  exact absurd digit (by decide)

theorem toText_inj {p q : Port} : p.toText = q.toText ↔ p = q := by
  refine ⟨fun same => ?_, congrArg toText⟩
  have digits : Nat.toDigits 10 p.number.toNat = Nat.toDigits 10 q.number.toNat := by
    rw [← toList_toText, ← toList_toText, same]
  have numbers : p.number.toNat = q.number.toNat := by
    rw [← Nat.ofDigitChars_ten_toDigits (n := p.number.toNat), digits,
      Nat.ofDigitChars_ten_toDigits]
  have ports : ofNumber p.number = ofNumber q.number := by rw [UInt16.toNat_inj.1 numbers]
  rwa [ofNumber_number, ofNumber_number, Except.ok.injEq] at ports

end Port

namespace Target

/-! ## Hosts -/

/-- The host has colons, and no bracket in front. -/
def IsBare (host : String) : Prop := ':' ∈ host.toList ∧ host.toList.head? ≠ some '['

theorem bracketed_of_isBare {host : String} (h : IsBare host) :
    bracketed host = "[" ++ host ++ "]" :=
  if_pos ⟨List.contains_iff_mem.2 h.1, h.2⟩

theorem bracketed_of_not_isBare {host : String} (h : ¬ IsBare host) : bracketed host = host :=
  if_neg fun ⟨colon, front⟩ => h ⟨List.contains_iff_mem.1 colon, front⟩

theorem not_isBare_brackets (host : String) : ¬ IsBare ("[" ++ host ++ "]") := by
  rintro ⟨-, front⟩
  refine front ?_
  rw [String.toList_append, String.toList_append]
  rfl

theorem brackets_inj {a b : String} : "[" ++ a ++ "]" = "[" ++ b ++ "]" ↔ a = b := by
  rw [String.append_left_inj, String.append_right_inj]

/-- The hosts are the same text, or one of them is bare and the other one is it in brackets. -/
def SameHost (a b : String) : Prop :=
  a = b ∨ (IsBare a ∧ b = "[" ++ a ++ "]") ∨ (IsBare b ∧ a = "[" ++ b ++ "]")

theorem bracketed_eq_iff {a b : String} : bracketed a = bracketed b ↔ SameHost a b := by
  constructor
  · intro same
    by_cases ha : IsBare a <;> by_cases hb : IsBare b
    · rw [bracketed_of_isBare ha, bracketed_of_isBare hb] at same
      exact .inl (brackets_inj.1 same)
    · rw [bracketed_of_isBare ha, bracketed_of_not_isBare hb] at same
      exact .inr (.inl ⟨ha, same.symm⟩)
    · rw [bracketed_of_not_isBare ha, bracketed_of_isBare hb] at same
      exact .inr (.inr ⟨hb, same⟩)
    · rw [bracketed_of_not_isBare ha, bracketed_of_not_isBare hb] at same
      exact .inl same
  · rintro (rfl | ⟨ha, rfl⟩ | ⟨hb, rfl⟩)
    · rfl
    · rw [bracketed_of_isBare ha, bracketed_of_not_isBare (not_isBare_brackets a)]
    · rw [bracketed_of_isBare hb, bracketed_of_not_isBare (not_isBare_brackets b)]

/-! ## Addresses -/

/-- A text is cut in one way only at a character that does not come again. -/
theorem cut_unique {x : Char} {a b front back : List Char} (last : x ∉ front) (last' : x ∉ back)
    (same : a ++ x :: front = b ++ x :: back) : a = b ∧ front = back := by
  have behind {es ds fs : List Char} (h : x :: ds = es ++ x :: fs) (none : x ∉ ds) : es = [] := by
    cases es with
    | nil => rfl
    | cons e es =>
        rw [List.cons_append] at h
        rw [(List.cons.inj h).2] at none
        exact absurd (List.mem_append_right _ (List.mem_cons_self ..)) none
  -- One of the first parts begins with the other one, and what it has more would hold the cut.
  obtain ⟨es, rfl, rest⟩ | ⟨es, rfl, rest⟩ := List.append_eq_append_iff.1 same
  · cases behind rest last
    exact ⟨(List.append_nil _).symm, (List.cons.inj rest).2⟩
  · cases behind rest last'
    exact ⟨List.append_nil _, (List.cons.inj rest).2.symm⟩

theorem toList_address (host : String) (p : Port) :
    (address host p).toList = (bracketed host).toList ++ ':' :: p.toText.toList := by
  rw [address, String.toList_append, String.toList_append, List.append_assoc]
  rfl

theorem address_inj {a b : String} {p q : Port} :
    address a p = address b q ↔ bracketed a = bracketed b ∧ p = q := by
  constructor
  · intro same
    have texts := congrArg String.toList same
    rw [toList_address, toList_address] at texts
    obtain ⟨hosts, ports⟩ := cut_unique p.colon_notMem_toText q.colon_notMem_toText texts
    exact ⟨String.toList_inj.1 hosts, Port.toText_inj.1 (String.toList_inj.1 ports)⟩
  · rintro ⟨hosts, rfl⟩
    rw [address, address, hosts]

/-- Both are the same replica: they have the same port, and the same host once it is in the
brackets that it needs. -/
def SameReplica (t u : Target) : Prop :=
  t.rpcPort = u.rpcPort ∧ bracketed t.host = bracketed u.host

theorem key_eq_iff {t u : Target} : t.key = u.key ↔ t.SameReplica u :=
  address_inj.trans and_comm

end Target

end LiveMigration
