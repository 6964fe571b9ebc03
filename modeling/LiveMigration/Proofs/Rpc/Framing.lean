import LiveMigration.Proofs.Json.Cut
import LiveMigration.Proofs.Rpc.Codec
import Mathlib.Data.List.Forall2

/-!
Messages that are written one behind the other on a connection. However the bytes are split on
their way, and wherever they stop, the listener handles the messages that came as a whole, in
order and once each, and answers each of them with a line. The last of them counts even without
its newline, and what is cut short counts nowhere, since no message begins another one.
-/

namespace LiveMigration.Rpc

open Json

/-! ## Messages that are cut short -/

theorem foldMembers_cut {α : Type} (take : α → String → Tree → Decoded α) (acc : α)
    (members : List (Option String × Tree)) (v : α) :
    foldMembers take false acc members ≠ .ok v := by
  induction members generalizing acc with
  | nil => nofun
  | cons member members ih =>
      rcases member with ⟨_ | key, t⟩
      · nofun
      · intro read
        obtain ⟨acc', _, rest⟩ := ok_of_bind read
        exact ih acc' rest

theorem noMoreItems_cut (origin : Origin) (items : List Tree) :
    noMoreItems origin false items ≠ .ok () := by
  cases items <;> nofun

theorem isComplete_of_envelope {t : Tree} {e : Envelope} (h : Envelope.ofTree t = .ok e) :
    t.isComplete = true := by
  unfold Envelope.ofTree at h
  split at h
  · rename_i members whole
    obtain ⟨slots, read, _⟩ := ok_of_bind h
    cases whole with
    | true => rfl
    | false => exact absurd read (foldMembers_cut _ _ _ _)
  · rename_i items whole
    obtain ⟨⟨tag, items⟩, _, h⟩ := ok_of_bind h
    obtain ⟨⟨body, items⟩, _, h⟩ := ok_of_bind h
    obtain ⟨⟨⟩, read, _⟩ := ok_of_bind h
    cases whole with
    | true => rfl
    | false => exact absurd read (noMoreItems_cut _ _)
  · cases h

theorem document_of_decode {line : Bytes} {m : Message} (h : Message.decode line = .ok m) :
    (Document.ofBytes line).ends = true ∧ (Document.ofBytes line).tree.isComplete = true := by
  unfold Message.decode at h
  split at h
  · cases h
  obtain ⟨e, read, _⟩ := ok_of_bind h
  obtain ⟨v, opened, h⟩ := ok_of_bind (ok_of_mapError read)
  refine ⟨?_, isComplete_of_envelope opened⟩
  by_cases ends : (Document.ofBytes line).ends = true
  · exact ends
  · rw [if_neg ends] at h
    cases h

/-- No message begins with another one: a proper part at the front of a message is none. -/
theorem decode_cut {m : Message} {front rest : Bytes} (h : m.encode = .ok (front ++ rest))
    (cut : rest ≠ []) (other : Message) : Message.decode front ≠ .ok other := by
  intro read
  obtain ⟨ends, complete⟩ := document_of_decode read
  obtain ⟨body, hb, written⟩ := encode_eq_ok h
  have plain := plain_envelope m.tag (plain_body hb)
  obtain ⟨inner, last, rfl⟩ := (List.eq_nil_or_concat rest).resolve_left cut
  rw [List.concat_eq_append] at written
  have brace : [last] = [0x7D] := by
    have parts := written
    rw [← List.append_assoc] at parts
    exact (List.append_inj' parts rfl).2
  cases brace
  rw [cut_incomplete plain written.symm ends] at complete
  cases complete

/-! ## A line in progress -/

namespace Session

variable {σ : Type}

/-- A listener that has taken the front of a line. -/
def within (front : Bytes) (replies : List Bytes) (state : σ) : Session σ :=
  ⟨front.reverse, maxLine - front.length, true, replies, state⟩

theorem start_eq (state : σ) : start state = within [] [] state := rfl

/-- A line that has not ended only grows. -/
theorem foldl_within (handle : Handler σ) {front more : Bytes} (single : newline ∉ more)
    (fits : front.length + more.length < maxLine) (replies : List Bytes) (state : σ) :
    more.foldl (takeByte handle) (within front replies state) =
      within (front ++ more) replies state := by
  induction more generalizing front with
  | nil => rw [List.append_nil]; rfl
  | cons b more ih =>
      rw [List.length_cons] at fits
      have inside : b ≠ newline := fun h => single (by simp [h])
      have roomy : maxLine - (front.length + 1) ≠ 0 := by omega
      have grown : takeByte handle (within front replies state) b =
          within (front ++ [b]) replies state := by
        simp [takeByte, within, inside, roomy, Nat.sub_sub]
      rw [List.foldl_cons, grown, ih (fun h => single (by simp [h])) (by simp; omega),
        List.append_assoc]
      rfl

/-- A reply as it is written. -/
def lineOf (r : Reply) : Bytes := r.encode ++ [newline]

theorem lineBody_of_visible {text : Bytes} (visible : IsVisible text) :
    lineBody text.reverse = text := by
  unfold lineBody
  cases ht : text.reverse with
  | nil => simpa using ht
  | cons b more =>
      have large := visible b (by rw [← List.mem_reverse, ht]; simp)
      have inside : (b == newline || b == carriageReturn) = false := by
        rw [Bool.or_eq_false_iff, beq_eq_false_iff_ne, beq_eq_false_iff_ne]
        constructor <;> rintro rfl <;> exact absurd large (by decide)
      rw [List.dropWhile_cons, inside, ← ht]
      simp

theorem isVisible_encode {m : Message} {text : Bytes} (h : m.encode = .ok text) :
    IsVisible text := by
  obtain ⟨body, hb, rfl⟩ := encode_eq_ok h
  exact isVisible_write _ (plain_envelope m.tag (plain_body hb))

theorem encode_ne_nil {m : Message} {text : Bytes} (h : m.encode = .ok text) : text ≠ [] := by
  obtain ⟨body, _, rfl⟩ := encode_eq_ok h
  nofun

section Lines

variable (handle : Handler σ) {m : Message} {text : Bytes} (written : m.encode = .ok text)
  (fits : text.length + 1 ≤ maxLine) (replies : List Bytes) (state : σ)

include written fits

/-- A line that was handled leaves nothing of it behind. -/
theorem foldl_line :
    (text ++ [newline]).foldl (takeByte handle) (within [] replies state) =
      within [] (replies ++ [lineOf (handle m state).1]) (handle m state).2 := by
  have single := (line_of_encode written).2
  rw [List.foldl_append, foldl_within handle single (by simp; omega), List.nil_append]
  have body : lineBody (newline :: text.reverse) = text :=
    lineBody_of_visible (isVisible_encode written)
  simp [takeByte, within, finishLine, body, decode_encode written, lineOf]

/-- The last line needs no newline. -/
theorem take_ended_text :
    (within text replies state).take handle .ended =
      (within [] (replies ++ [lineOf (handle m state).1]) (handle m state).2).close := by
  have body := lineBody_of_visible (isVisible_encode written)
  have some := encode_ne_nil written
  have roomy : maxLine - text.length ≠ 0 := by omega
  simp [take, within, finishLine, body, decode_encode written, lineOf, some, roomy]

/-- A line that was cut short is dropped. -/
theorem take_ended_cut {stop : Nat} (cut : stop < text.length) :
    (within (text.take stop) replies state).take handle .ended =
      (within (text.take stop) replies state).close := by
  have visible : IsVisible (text.take stop) := fun b hb =>
    isVisible_encode written b (List.mem_of_mem_take hb)
  have body := lineBody_of_visible visible
  have roomy : maxLine - (text.take stop).length ≠ 0 := by
    rw [List.length_take]
    omega
  have none : ∀ other, Message.decode (text.take stop) ≠ .ok other := by
    have parts := written
    rw [← List.take_append_drop stop text] at parts
    exact decode_cut parts (by simpa using cut)
  have dropped : (within (text.take stop) replies state).finishLine handle =
      (within (text.take stop) replies state).close := by
    unfold finishLine
    rw [if_neg (fun full => roomy full.1)]
    simp only [within, body]
    split
    · rfl
    · rename_i other read
      exact absurd read (none other)
  rw [take, dropped]
  exact ite_self _

end Lines

/-! ## A whole connection -/

/-- The replies to a list of messages, and the state they leave behind. -/
def answering (handle : Handler σ) : List Message → σ → List Reply × σ
  | [], state => ([], state)
  | m :: ms, state =>
    let (reply, state) := handle m state
    let (replies, state) := answering handle ms state
    (reply :: replies, state)

/-- Texts one behind the other, each with its newline. -/
def stream (texts : List Bytes) : Bytes := texts.flatMap (· ++ [newline])

/-- Where in the stream the text with this number ends, its newline not included. -/
def endOf (texts : List Bytes) (i : Nat) : Nat :=
  (Bytes.joinWith newline (texts.take (i + 1))).length

/-- How many of the texts are in the stream as a whole if it is cut here. -/
def arrived : List Bytes → Nat → Nat
  | [], _ => 0
  | text :: rest, stop =>
    if stop < text.length then 0
    else if stop = text.length then 1
    else arrived rest (stop - (text.length + 1)) + 1

theorem endOf_zero (text : Bytes) (rest : List Bytes) : endOf (text :: rest) 0 = text.length := rfl

theorem endOf_succ (text : Bytes) {rest : List Bytes} {i : Nat} (h : i < rest.length) :
    endOf (text :: rest) (i + 1) = text.length + 1 + endOf rest i := by
  obtain ⟨next, more, rfl⟩ := List.exists_cons_of_length_pos (Nat.zero_lt_of_lt h)
  simp only [endOf, List.take_succ_cons, Bytes.joinWith, List.length_append, List.length_cons]
  omega

theorem lt_arrived_iff {texts : List Bytes} {i : Nat} (h : i < texts.length) (stop : Nat) :
    i < arrived texts stop ↔ endOf texts i ≤ stop := by
  induction texts generalizing i stop with
  | nil => cases h
  | cons text rest ih =>
      unfold arrived
      cases i with
      | zero =>
          rw [endOf_zero]
          split
          · omega
          · split <;> omega
      | succ i =>
          have inside : i < rest.length := by simpa using h
          have next := ih inside (stop - (text.length + 1))
          rw [endOf_succ text inside]
          split
          · omega
          · split <;> omega

theorem run_pieces (handle : Handler σ) (state : σ) (pieces : List Bytes) :
    run handle state (pieces.map .data ++ [.ended]) =
      (pieces.flatten.foldl (takeByte handle) (within [] [] state)).take handle .ended := by
  rw [run, start_eq, List.foldl_append, List.foldl_map, List.foldl_flatten]
  rfl

theorem stream_cons (text : Bytes) (rest : List Bytes) :
    stream (text :: rest) = text ++ [newline] ++ stream rest := rfl

/-- A listener that is between two lines answers the texts that are still to come as a whole. -/
theorem take_ended_stream (handle : Handler σ) {ms : List Message} {texts : List Bytes}
    (written : List.Forall₂ (fun m text => m.encode = .ok text) ms texts)
    (fits : ∀ text ∈ texts, text.length + 1 ≤ maxLine) (stop : Nat) (replies : List Bytes)
    (state : σ) :
    let done := (((stream texts).take stop).foldl (takeByte handle)
      (within [] replies state)).take handle .ended
    let answers := answering handle (ms.take (arrived texts stop)) state
    done.replies = replies ++ answers.1.map lineOf ∧ done.state = answers.2 := by
  induction written generalizing stop replies state with
  | nil => simp [stream, take, within, answering, close]
  | @cons m text ms rest encoded _ ih =>
      have short := fits text (by simp)
      rw [stream_cons, arrived]
      split
      · rename_i cut
        have part : (text ++ [newline] ++ stream rest).take stop = text.take stop := by
          rw [List.append_assoc, List.take_append_of_le_length (by omega)]
        have single : newline ∉ text.take stop := fun h =>
          (line_of_encode encoded).2 (List.mem_of_mem_take h)
        rw [part, foldl_within handle single (by simp; omega), List.nil_append,
          take_ended_cut handle encoded short replies state cut]
        simp [within, close, answering]
      split
      · rename_i _ exactly
        have part : (text ++ [newline] ++ stream rest).take stop = text := by
          rw [List.append_assoc, exactly, List.take_left]
        rw [part, foldl_within handle (line_of_encode encoded).2 (by simp; omega),
          List.nil_append, take_ended_text handle encoded short replies state]
        simp [within, close, answering]
      · have beyond : (text ++ [newline]).length ≤ stop := by
          simp
          omega
        have part : (text ++ [newline] ++ stream rest).take stop =
            text ++ [newline] ++ (stream rest).take (stop - (text.length + 1)) := by
          rw [List.take_append, List.take_of_length_le beyond]
          simp
        have next := ih (fun t ht => fits t (by simp [ht])) (stop - (text.length + 1))
          (replies ++ [lineOf (handle m state).1]) (handle m state).2
        rw [part, List.foldl_append, foldl_line handle encoded short replies state]
        simpa [answering] using next

/-- The handler, with a record of what it was called with. -/
def noted (handle : Handler σ) : Handler (σ × List Message) := fun m s =>
  ((handle m s.1).1, (handle m s.1).2, s.2 ++ [m])

theorem answering_noted (handle : Handler σ) (ms : List Message) (state : σ)
    (seen : List Message) :
    answering (noted handle) ms (state, seen) =
      ((answering handle ms state).1, (answering handle ms state).2, seen ++ ms) := by
  induction ms generalizing state seen with
  | nil => simp [answering]
  | cons m ms ih => simp [answering, noted, ih]

theorem length_answering (handle : Handler σ) (ms : List Message) (state : σ) :
    (answering handle ms state).1.length = ms.length := by
  induction ms generalizing state with
  | nil => rfl
  | cons m ms ih => exact congrArg (· + 1) (ih _)

theorem newline_not_mem_encode (r : Reply) : newline ∉ r.encode := by
  have plain : r.toTree.isPlain = true := by cases r <;> rfl
  intro inside
  exact absurd (isVisible_write _ plain newline inside) (by decide)

/-- Of messages that are written one behind the other the listener handles those whose text came
as a whole, in order and once each, and writes one line for each of them; it takes no proper part
at the front of a message for a message. -/
theorem run_stream (handle : Handler σ) (state : σ) {ms : List Message} {texts : List Bytes}
    (written : List.Forall₂ (fun m text => m.encode = .ok text) ms texts)
    (fits : ∀ text ∈ texts, text.length + 1 ≤ maxLine) (pieces : List Bytes) (stop : Nat)
    (sent : pieces.flatten = (stream texts).take stop) :
    (∃ count, (∀ i < ms.length, i < count ↔ endOf texts i ≤ stop) ∧
      let done := run (noted handle) (state, []) (pieces.map .data ++ [.ended])
      let answers := answering handle (ms.take count) state
      done.state = (answers.2, ms.take count) ∧
        done.replies = answers.1.map lineOf ∧
        done.replies.length = (ms.take count).length ∧
        ∀ line ∈ done.replies, ∃ body, line = body ++ [newline] ∧ newline ∉ body) ∧
      ∀ (m : Message) (front rest : Bytes), m.encode = .ok (front ++ rest) → rest ≠ [] →
        ∀ other, Message.decode front ≠ .ok other := by
  refine ⟨⟨arrived texts stop, ?_, ?_⟩, fun m front rest h cut => decode_cut h cut⟩
  · intro i hi
    exact lt_arrived_iff (by rwa [← written.length_eq]) stop
  obtain ⟨replied, left⟩ :=
    take_ended_stream (noted handle) written fits stop [] (state, [])
  rw [← sent, ← run_pieces, answering_noted, List.nil_append] at replied
  rw [← sent, ← run_pieces, answering_noted, List.nil_append] at left
  refine ⟨left, replied, ?_, ?_⟩
  · rw [replied, List.length_map, length_answering]
  · intro line hline
    rw [replied] at hline
    obtain ⟨r, _, rfl⟩ := List.mem_map.1 hline
    exact ⟨r.encode, rfl, newline_not_mem_encode r⟩

theorem isAbsolute_accented : (Path.ofText "/é").isAbsolute = true := by decide +kernel

/-- A join whose path takes two bytes for its last character. -/
def accentedJoin : Join where
  rpcPort := ⟨4710, by decide⟩
  dumpPath := .ofText "/é"
  filePort := ⟨4810, by decide⟩
  absolute := isAbsolute_accented

def sampleTexts : List Bytes := [
  Bytes.ofText "\x7b\"tag\":\"Ping\",\"body\":null\x7d",
  Bytes.ofText ("\x7b\"tag\":\"Join\",\"body\":\x7b\"dump_path\":\"/é\"," ++
    "\"file_transfer_port\":4810,\"rpc_port\":4710\x7d\x7d")]

theorem written_sampleTexts :
    List.Forall₂ (fun (m : Message) text => m.encode = .ok text) [.ping, .join accentedJoin]
      sampleTexts := .cons rfl (.cons rfl .nil)

/-- The sender stops inside of the two bytes, so that only the first message is handled. -/
theorem run_stream_inside_character :
    let sent := (stream sampleTexts).take 64
    let done := run (noted fun _ n => (.ack, n + 1)) (0, [])
      [.data (sent.take 40), .data (sent.drop 40), .ended]
    sent.getLast? = some 0xC3 ∧ done.state = (1, [.ping]) ∧ done.replies = [lineOf .ack] := by
  let sent := (stream sampleTexts).take 64
  obtain ⟨⟨count, upTo, left, replied, _, _⟩, _⟩ :=
    run_stream (fun _ (n : Nat) => (.ack, n + 1)) 0 written_sampleTexts (by decide +kernel)
      [sent.take 40, sent.drop 40] 64 (by simp [sent])
  have first : 0 < count := (upTo 0 (by decide)).2 (by decide +kernel)
  have second : ¬ 1 < count := fun h => absurd ((upTo 1 (by decide)).1 h) (by decide +kernel)
  obtain rfl : count = 1 := by omega
  exact ⟨by decide +kernel, left, replied⟩

end Session

end LiveMigration.Rpc
