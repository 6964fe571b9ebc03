import LiveMigration.Control.Exchange
import LiveMigration.Engine.Runc
import LiveMigration.Node.Remote
import LiveMigration.Proofs.Node.Refusal
import LiveMigration.Proofs.Rpc.Codec
import LiveMigration.Proofs.Text.Lines

/-!
An exchange over the control socket. The request is read as the command it was written from, so
the handler is called once with that very command. The answer is one line by its form alone: a
reason is written as it is, and what reaches the client of it is its first line without the
blanks at its end. All reasons of a node fit a line but those that an engine gives.
-/

namespace LiveMigration.Control

open Rpc (firstLine newline lineOf firstLine_ofText count_newline_ofText)
open Text (isBlank trimEndChars)

/-! ## Texts on a line -/

/-- A text that is one line and ends in a character that is no blank. -/
structure FitsLine (s : String) : Prop where
  unbroken : '\n' ∉ s.toList
  ends : ∃ c, s.toList.getLast? = some c ∧ isBlank c = false

instance (s : String) : Decidable (FitsLine s) :=
  decidable_of_iff ('\n' ∉ s.toList ∧ s.toList.getLast?.any (!isBlank ·) = true) <| by
    constructor
    · rintro ⟨unbroken, ends⟩
      obtain ⟨c, last, ink⟩ := Option.any_eq_true _ _ |>.1 ends
      exact ⟨unbroken, c, last, by simpa using ink⟩
    · rintro ⟨unbroken, c, last, ink⟩
      exact ⟨unbroken, by rw [last, Option.any_some, ink]; rfl⟩

/-- What is left of a text that is written on a line of its own. -/
def heard (s : String) : String := String.ofList (trimEndChars (lineOf s))

/-- The text begins with a character that is no blank. -/
def Leads (s : String) : Prop := ∃ c, s.toList.head? = some c ∧ isBlank c = false

theorem Leads.append {a : String} (h : Leads a) (b : String) : Leads (a ++ b) := by
  obtain ⟨c, first, ink⟩ := h
  refine ⟨c, ?_, ink⟩
  rw [String.toList_append, List.head?_append, first]
  rfl

theorem lineOf_eq_self_iff {s : String} : lineOf s = s.toList ↔ '\n' ∉ s.toList := by
  rw [lineOf, List.takeWhile_eq_self_iff]
  simp only [ne_eq, decide_eq_true_eq]
  exact ⟨fun h mem => h _ mem rfl, fun h x mem same => h (same ▸ mem)⟩

theorem heard_eq_self_iff {s : String} (h : Leads s) : heard s = s ↔ FitsLine s := by
  rw [heard, String.ext_iff, String.toList_ofList, Text.trimEndChars_eq]
  constructor
  · intro same
    have front : lineOf s <+: s.toList := List.takeWhile_prefix _
    have behind := List.rdropWhile_prefix isBlank (lineOf s)
    have shorter := behind.length_le
    have whole : lineOf s = s.toList :=
      front.eq_of_length (Nat.le_antisymm front.length_le (same ▸ shorter))
    rw [whole, List.rdropWhile_eq_self_iff] at same
    obtain ⟨_, first, _⟩ := h
    have ne : s.toList ≠ [] := by
      intro empty
      rw [empty] at first
      cases first
    exact ⟨lineOf_eq_self_iff.1 whole, _, List.getLast?_eq_some_getLast ne,
      by simpa using same ne⟩
  · intro h
    rw [lineOf_eq_self_iff.2 h.unbroken, List.rdropWhile_eq_self_iff]
    obtain ⟨c, last, ink⟩ := h.ends
    intro ne
    rw [List.getLast?_eq_some_getLast ne] at last
    rw [Option.some.inj last, ink]
    exact nofun

/-- A text that begins with a character reads as its first line does. -/
theorem trim_line {s : String} (h : Leads s) :
    Text.trim (String.ofList (lineOf s ++ ['\n'])) = heard s := by
  obtain ⟨c, first, ink⟩ := h
  obtain ⟨rest, chars⟩ := List.head?_eq_some_iff.1 first
  have other : c ≠ '\n' := by
    rintro rfl
    cases ink
  have line : lineOf s = c :: rest.takeWhile (· ≠ '\n') := by
    rw [lineOf, chars, List.takeWhile_cons_of_pos (by simpa using other)]
  rw [Text.trim, String.toList_ofList, heard, line, List.cons_append,
    Text.trimStartChars_of_cons ink, ← List.cons_append, Text.trimEndChars_eq,
    List.rdropWhile_concat_pos _ _ _ rfl, Text.trimEndChars_eq]

/-! ## Requests -/

theorem isBlank_of_mem_id {id : ContainerId} {c : Char} (mem : c ∈ id.text.toList) :
    isBlank c = false := by
  obtain plain | rfl | rfl | rfl := id.isValid_text.plain c mem
  · have range := ContainerId.range_of_isAlphanum plain
    simp only [isBlank, Bool.or_eq_false_iff, Bool.and_eq_false_imp, decide_eq_true_eq,
      decide_eq_false_iff_not, not_le, beq_eq_false_iff_ne, ne_eq]
    omega
  · rfl
  · rfl
  · rfl

/-- What comes after other words on the line has to end as the line does. -/
theorem FitsLine.after {a b : String} (unbroken : '\n' ∉ a.toList) (h : FitsLine b) :
    FitsLine (a ++ b) where
  unbroken := by
    rw [String.toList_append, List.mem_append, not_or]
    exact ⟨unbroken, h.unbroken⟩
  ends := by
    obtain ⟨c, last, ink⟩ := h.ends
    refine ⟨c, ?_, ink⟩
    rw [String.toList_append, List.getLast?_append, last]
    rfl

theorem FitsLine.unbroken_between {a b c : String} (front : '\n' ∉ a.toList) (h : FitsLine b)
    (rest : '\n' ∉ c.toList) : '\n' ∉ (a ++ b ++ c).toList := by
  rw [String.toList_append, List.mem_append, not_or]
  exact ⟨(h.after front).unbroken, rest⟩

theorem FitsLine.after_iff {a b : String} (unbroken : '\n' ∉ a.toList)
    (blank : a.toList.getLast? = some ' ') : FitsLine (a ++ b) ↔ FitsLine b := by
  refine ⟨fun h => ?_, .after unbroken⟩
  obtain ⟨c, last, ink⟩ := h.ends
  have beyond := h.unbroken
  rw [String.toList_append, List.getLast?_append, blank] at last
  rw [String.toList_append, List.mem_append, not_or] at beyond
  refine ⟨beyond.2, c, ?_, ink⟩
  cases final : b.toList.getLast? with
  | none =>
      rw [final] at last
      cases last
      cases ink
  | some x =>
      rw [final] at last
      exact last

theorem fitsLine_id (id : ContainerId) : FitsLine id.text where
  unbroken mem := by
    have := isBlank_of_mem_id mem
    cases this
  ends := by
    have ne : id.text.toList ≠ [] := by simpa using (ContainerId.isValid_text id).nonempty
    exact ⟨_, List.getLast?_eq_some_getLast ne, isBlank_of_mem_id (List.getLast_mem ne)⟩

theorem fitsLine_toText (c : Command) : FitsLine c.toText := by
  cases c with
  | checkpoint => decide
  | migrate id => exact (fitsLine_id id).after (by decide)

theorem leads_toText (c : Command) : Leads c.toText := by
  cases c with
  | checkpoint => exact ⟨'C', by decide, by decide⟩
  | migrate id => exact Leads.append ⟨'M', by decide, by decide⟩ id.text

theorem words_toText (c : Command) : Text.words c.toText =
    match c with
    | .checkpoint => ["CHECKPOINT"]
    | .migrate id => ["MIGRATE", id.text] := by
  cases c with
  | checkpoint => decide
  | migrate id =>
      have plain : ∀ c ∈ id.text.toList, isBlank c = false := fun _ mem => isBlank_of_mem_id mem
      have whole := Text.foldr_addToWords plain ([], [])
      have ne : id.text.toList ≠ [] := by simpa using (ContainerId.isValid_text id).nonempty
      have read : "MIGRATE ".toList.foldr Text.addToWords (id.text.toList, []) =
          ("MIGRATE".toList, [id.text.toList]) := by
        cases word : id.text.toList with
        | nil => exact absurd word ne
        | cons c cs => rfl
      rw [List.append_nil] at whole
      rw [Text.words, Command.toText, String.toList_append, List.foldr_append, whole, read]
      simp

theorem ofText_toText (c : Command) : Command.ofText c.toText = .ok c := by
  rw [Command.ofText, words_toText]
  cases c with
  | checkpoint => rfl
  | migrate id =>
      simp only [Command.ofWords, ContainerId.ofText_text]

/-- The handler is called with the command that was sent. -/
theorem serve_request {σ : Type} (handle : Handler σ) (c : Command) (s : σ) :
    serve handle (request c) s = (answerLine (handle c s).1, (handle c s).2) := by
  rw [serve, request, firstLine_ofText, Bytes.text?_ofText]
  dsimp only
  rw [trim_line (leads_toText c), (heard_eq_self_iff (leads_toText c)).2 (fitsLine_toText c),
    ofText_toText]

/-! ## Answers -/

theorem lineOf_append {a : String} (unbroken : '\n' ∉ a.toList) (b : String) :
    lineOf (a ++ b) = a.toList ++ lineOf b := by
  rw [lineOf, String.toList_append, List.takeWhile_append_of_pos, lineOf]
  intro c mem
  rw [decide_eq_true_eq]
  rintro rfl
  exact unbroken mem

theorem heard_append {a b : String} (unbroken : '\n' ∉ a.toList) (h : Leads b) :
    heard (a ++ b) = a ++ heard b := by
  have inked : ∃ c ∈ lineOf b, isBlank c = false := by
    obtain ⟨c, first, ink⟩ := h
    obtain ⟨rest, chars⟩ := List.head?_eq_some_iff.1 first
    refine ⟨c, ?_, ink⟩
    have other : c ≠ '\n' := by
      rintro rfl
      cases ink
    rw [lineOf, chars, List.takeWhile_cons_of_pos (by simpa using other)]
    exact List.mem_cons_self
  rw [heard, lineOf_append unbroken, Text.trimEndChars_append inked, String.ofList_append,
    String.ofList_toList, heard]

theorem reasonIn_error (reason : String) : reasonIn ("ERR " ++ reason) = reason := by
  have marked : errorMark.isPrefixOf ("ERR " ++ reason).toList = true := by
    rw [List.isPrefixOf_iff_prefix, String.toList_append]
    exact List.prefix_append _ _
  rw [reasonIn, if_pos marked, String.toList_append,
    List.drop_left' (show "ERR ".toList.length = errorMark.length from rfl), String.ofList_toList]

theorem resultOf_ok (path : Path) : resultOf path (answerLine (.ok ())) = .ok () := by
  have whole : heard "OK" = "OK" := by decide
  rw [resultOf, answerLine, firstLine_ofText, Bytes.text?_ofText]
  dsimp only
  rw [trim_line ⟨'O', by decide, by decide⟩, whole, if_pos rfl]

/-- Of a reason the client gets the first line, without the blanks at its end. -/
theorem resultOf_refused (path : Path) {reason : String} (h : Leads reason) :
    resultOf path (answerLine (.error (.refused reason))) = .error (.refused (heard reason)) := by
  have leads : Leads ("ERR " ++ reason) := .append ⟨'E', by decide, by decide⟩ reason
  have other : "ERR " ++ heard reason ≠ "OK" := by
    intro same
    have first := congrArg (·.toList.head?) same
    simp at first
  rw [resultOf, answerLine, ControlError.answer, firstLine_ofText, Bytes.text?_ofText]
  dsimp only
  rw [trim_line leads, heard_append (by decide) h, if_neg other, reasonIn_error]

theorem count_newline_answerLine (reason : String) :
    (answerLine (.error (.refused reason))).count newline = reason.toList.count '\n' + 1 := by
  rw [answerLine, ControlError.answer, List.count_append, count_newline_ofText,
    String.toList_append, List.count_append]
  simp

/-! ## The reasons of a node -/

theorem leads_message (e : NodeError) : Leads e.message := by
  cases e with
  | status e => exact .append ⟨'I', by decide, by decide⟩ _
  | noContainer => exact ⟨'N', by decide, by decide⟩
  | notRunning now => exact .append (.append ⟨'C', by decide, by decide⟩ _) _
  | otherContainer running requested =>
      exact .append (.append (.append ⟨'C', by decide, by decide⟩ _) _) _
  | noTarget => exact ⟨'N', by decide, by decide⟩
  | notReplicated t => exact .append ⟨'C', by decide, by decide⟩ _
  | scan e => exact .append ⟨'D', by decide, by decide⟩ _
  | name e => exact .append ⟨'D', by decide, by decide⟩ _
  | lineage e => exact .append ⟨'C', by decide, by decide⟩ _
  | engine e => exact .append ⟨'C', by decide, by decide⟩ _
  | rpc e => exact .append ⟨'R', by decide, by decide⟩ _
  | control e => exact .append ⟨'C', by decide, by decide⟩ _
  | io step fault => exact .append (.append (.append ⟨'I', by decide, by decide⟩ _) _) _

theorem fitsLine_statusName (s : Status) : FitsLine s.name := by
  cases s <;> decide

theorem fitsLine_statusError (e : StatusError) : FitsLine e.message := by
  cases e with
  | illegal source target =>
      exact .after (FitsLine.unbroken_between (by decide) (fitsLine_statusName source) (by decide))
        (fitsLine_statusName target)
  | ended s => exact (fitsLine_statusName s).after (by decide)

theorem fitsLine_osError (e : OsError) : FitsLine e.message := by
  cases e <;> decide

/-- Looking for something on a disk fails for a reason of the operating system, or because of a
zero byte in its path. -/
theorem fitsLine_of_findEntry {d : Disk} {path : Path} {f : Fault}
    (h : d.findEntry path = .error f) : FitsLine f.message := by
  unfold Disk.findEntry FileTree.find at h
  split at h
  · cases h
    decide
  split at h
  · cases h
    decide
  split at h
  · cases h
    decide
  · generalize FileTree.follow _ _ _ _ _ = followed at h
    cases followed with
    | ok => cases h
    | error e =>
        cases h
        exact fitsLine_osError e

theorem fitsLine_of_removeAll {d : Disk} {path : Path} {f : Fault}
    (h : d.removeAll path = .error f) : FitsLine f.message := by
  unfold Disk.removeAll at h
  split at h
  · cases h
  · cases h
  · cases h
    decide
  · cases h
    decide
  · rename_i missed
    cases h
    exact fitsLine_of_findEntry missed

theorem fitsLine_otherContainer (running requested : ContainerId) :
    FitsLine (NodeError.otherContainer running requested).message :=
  .after (FitsLine.unbroken_between (by decide) (fitsLine_id running) (by decide))
    (fitsLine_id requested)

theorem fitsLine_notRunning (now : Status) : FitsLine (NodeError.notRunning now).message :=
  .after ((fitsLine_statusName now).after (by decide)).unbroken (by decide)

theorem fitsLine_trim_iff {s : String} :
    FitsLine (Text.trim s) ↔ Text.trim s ≠ "" ∧ '\n' ∉ (Text.trim s).toList := by
  constructor
  · intro h
    refine ⟨?_, h.unbroken⟩
    rintro empty
    obtain ⟨c, last, _⟩ := h.ends
    rw [empty] at last
    cases last
  · rintro ⟨ne, unbroken⟩
    have ne : (Text.trim s).toList ≠ [] := by simpa using ne
    refine ⟨unbroken, _, List.getLast?_eq_some_getLast ne, ?_⟩
    simp only [Text.trim, String.toList_ofList, Text.trimEndChars_eq] at ne ⊢
    simpa using List.rdropWhile_last_not isBlank _ ne

/-- Before the reason of an engine stands a text that ends in a blank. -/
theorem fitsLine_commandFailed (action : Engine.Action) (container : ContainerId)
    (reason : String) :
    FitsLine (NodeError.engine (.commandFailed action container reason)).message ↔
      FitsLine reason := by
  let lead := "runc " ++ action.name ++ " failed for " ++ container.text ++ ": "
  have unbroken : '\n' ∉ lead.toList := by
    have acting : '\n' ∉ action.name.toList := by cases action <;> decide
    simp [lead, acting, (fitsLine_id container).unbroken]
  have blank : lead.toList.getLast? = some ' ' := by
    rw [String.toList_append, List.getLast?_append]
    rfl
  change FitsLine ("Checkpoint engine error: " ++ (lead ++ reason)) ↔ _
  rw [FitsLine.after_iff (by decide) (by decide), FitsLine.after_iff unbroken blank]

/-- What an engine command wrote on its error stream gets through if it is one line. -/
theorem fitsLine_of_callResult {call : Engine.Call} {ended : Engine.Runc.Ended} {f : EngineError}
    (h : Engine.Runc.callResult call (.ok ended) = .error f) :
    FitsLine (NodeError.engine f).message ↔
      Text.trim (Bytes.display ended.errors) ≠ "" ∧
        '\n' ∉ (Text.trim (Bytes.display ended.errors)).toList := by
  unfold Engine.Runc.callResult at h
  dsimp only at h
  split at h
  · cases h
  · cases h
    rw [fitsLine_commandFailed, fitsLine_trim_iff]

section

open Node

variable {σ : Type} {settings : Settings} {rig : Rig σ} {s s' : Site σ} {e : NodeError}

theorem fitsLine_of_requestMigration {id : ContainerId}
    (h : s.requestMigration id = (.error e, s')) : FitsLine e.message := by
  unfold Site.requestMigration at h
  split at h
  · cases h
    decide
  split at h
  · cases h
    exact fitsLine_otherContainer _ _
  split at h
  · cases h
    decide
  split at h
  · cases h
    rename_i refusal _
    exact (fitsLine_statusError refusal).after (by decide)
  · cases h

/-- Of the reasons for which a checkpoint is not taken, only that of the engine may be anything. -/
theorem reason_of_checkpoint (h : s.checkpoint settings rig = (.error (.error e), s')) :
    FitsLine e.message ∨ ∃ f, e = .engine f := by
  unfold Site.checkpoint at h
  split at h
  · cases h
    exact .inl (fitsLine_notRunning _)
  split at h
  · cases h
    exact .inl (by decide)
  split at h
  · cases h
  split at h
  · rename_i cleared
    cases h
    unfold Site.clearImage at cleared
    split at cleared
    · split at cleared
      · rename_i missed
        cases cleared
        exact .inl ((fitsLine_of_removeAll missed).after (by decide))
      · cases cleared
    · cases cleared
  split at h
  · rename_i f _ _
    cases h
    exact .inr ⟨f, rfl⟩
  · cases h

theorem reason_of_execute {c : Command} (h : s.execute settings rig c = (.error (.error e), s')) :
    FitsLine e.message ∨ c = .checkpoint ∧ ∃ f, e = .engine f := by
  obtain ⟨rfl, asked⟩ | ⟨_, _, asked⟩ := Site.execute_failed h
  · exact (reason_of_checkpoint asked).imp id fun engine => ⟨rfl, engine⟩
  · exact .inl (fitsLine_of_requestMigration asked)

/-! ## The exchange -/

/-- A handler that does on a node what it is told. There is no result of a command that the node
does not survive. -/
structure Serves (settings : Settings) (rig : Rig σ) (handle : Handler (Site σ)) : Prop where
  done {c : Command} {s s' : Site σ} (h : s.execute settings rig c = (.ok (), s')) :
    handle c s = (.ok (), s')
  refused {c : Command} {s s' : Site σ} {e : NodeError}
    (h : s.execute settings rig c = (.error (.error e), s')) :
    handle c s = (.error (.refused e.message), s')

/-- The handler, with a list of the commands that it is called with. -/
def noted {τ : Type} (handle : Handler τ) : Handler (τ × List Command) := fun c (s, calls) =>
  ((handle c s).1, (handle c s).2, calls ++ [c])

theorem send_serve {τ : Type} (path : Path) (c : Command) (handle : Handler τ) (s : τ) :
    send path c (.ok (serve handle)) s =
      (resultOf path (answerLine (handle c s).1), (handle c s).2) := by
  rw [send]
  dsimp only
  rw [serve_request]

theorem exchange_of_execute {handle : Handler (Site σ)} (serves : Serves settings rig handle)
    (path : Path) {c : Command} {r : Attempt Unit} (h : s.execute settings rig c = (r, s'))
    (survives : r ≠ .error .overflow) (calls : List Command) : ∃ line result,
      serve (noted handle) (request c) (s, calls) = (line, s', calls ++ [c]) ∧
      send path c (.ok (serve (noted handle))) (s, calls) = (result, s', calls ++ [c]) ∧
      (result = .ok () ↔ r = .ok ()) ∧
      (r = .ok () → line = Bytes.ofText "OK\n") ∧
      ∀ e, r = .error (.error e) →
        line = Bytes.ofText ("ERR " ++ e.message ++ "\n") ∧
        (line.count newline = 1 ↔ '\n' ∉ e.message.toList) ∧
        result = .error (.refused (heard e.message)) ∧
        (heard e.message = e.message ↔ FitsLine e.message) ∧
        (FitsLine e.message ∨ c = .checkpoint ∧ ∃ f, e = .engine f) := by
  cases r with
  | ok =>
      have handled := serves.done h
      refine ⟨answerLine (.ok ()), .ok (), ?_, ?_, iff_of_true rfl rfl, fun _ => by decide, nofun⟩
      · rw [serve_request, noted, handled]
      · rw [send_serve, noted, handled, resultOf_ok]
  | error failure =>
      cases failure with
      | overflow => exact absurd rfl survives
      | error e =>
          have handled := serves.refused h
          have leads := leads_message e
          refine ⟨answerLine (.error (.refused e.message)), .error (.refused (heard e.message)),
            ?_, ?_, iff_of_false nofun nofun, nofun, ?_⟩
          · rw [serve_request, noted, handled]
          · rw [send_serve, noted, handled, resultOf_refused path leads]
          · rintro _ ⟨⟩
            refine ⟨?_, ?_, rfl, heard_eq_self_iff leads, reason_of_execute h⟩
            · rw [Bytes.ofText_append]
              rfl
            · rw [count_newline_answerLine, Nat.add_eq_right, List.count_eq_zero]

/-- Such a handler; a command that the node does not survive is counted as done. -/
def handlerOn (settings : Settings) (rig : Rig σ) : Handler (Site σ) := fun c s =>
  match s.execute settings rig c with
  | (.error (.error e), s) => (.error (.refused e.message), s)
  | (_, s) => (.ok (), s)

theorem serves_handlerOn (settings : Settings) (rig : Rig σ) :
    Serves settings rig (handlerOn settings rig) where
  done h := by rw [handlerOn, h]
  refused h := by rw [handlerOn, h]

/-- An engine whose calls fail with something on the error stream. -/
def failingRig (errors : Bytes) : Rig Unit where
  engine := fun c disk s => (Engine.Runc.callResult c (.ok ⟨256, errors⟩), disk, s)
  launched := fun _ s => s
  send := fun _ _ _ _ s => (.ok (), s)
  network := fun _ _ s => (.late, s)

def sampleRunning : Site Unit :=
  (Site.run Rig.sample sampleContainer Settings.sample.dumpPath
    ⟨standingBy, sampleDisk, ()⟩).2

theorem exchange_of_execute_sample :
    let handle := handlerOn .sample (failingRig (Bytes.ofText "no such process\n"))
    let reason := "Checkpoint engine error: runc dump failed for c: no such process"
    (serve handle (request .checkpoint) sampleRunning).1 = Bytes.ofText ("ERR " ++ reason ++ "\n") ∧
      send Settings.sample.controlSocket .checkpoint (.ok (serve (noted handle)))
        (sampleRunning, []) = (.error (.refused reason), sampleRunning, [.checkpoint]) := by
  intro handle reason
  obtain ⟨line, result, served, sent, _, _, refused⟩ := exchange_of_execute (s := sampleRunning)
    (serves_handlerOn .sample (failingRig (Bytes.ofText "no such process\n")))
    Settings.sample.controlSocket (c := .checkpoint) (r := .error (.error (.engine
      (.commandFailed .dump sampleContainer "no such process")))) rfl nofun []
  obtain ⟨written, _, told, whole, _⟩ := refused _ rfl
  have answered : (serve handle (request .checkpoint) sampleRunning).1 = line := by
    rw [serve_request] at served ⊢
    exact congrArg Prod.fst served
  rw [whole.2 (by decide)] at told
  exact ⟨answered.trans written, sent.trans (by rw [told]; rfl)⟩

/-- The engine writes two lines on its error stream, and so the answer has two lines; the client
gets the first one. -/
theorem reason_cut_at_newline :
    let handle := handlerOn .sample (failingRig (Bytes.ofText "first\nsecond\n"))
    (handle .checkpoint sampleRunning).1 = .error (.refused
      "Checkpoint engine error: runc dump failed for c: first\nsecond") ∧
    (serve handle (request .checkpoint) sampleRunning).1.count newline = 2 ∧
    (send Settings.sample.controlSocket .checkpoint (.ok (serve handle)) sampleRunning).1 =
      .error (.refused "Checkpoint engine error: runc dump failed for c: first") := by
  intro handle
  have answered : (handle .checkpoint sampleRunning).1 = .error (.refused
      "Checkpoint engine error: runc dump failed for c: first\nsecond") := by
    decide +kernel
  refine ⟨answered, ?_, ?_⟩
  · rw [serve_request, answered, count_newline_answerLine]
    decide
  · rw [send_serve, answered, resultOf_refused _ ⟨'C', by decide, by decide⟩]
    decide

end

end LiveMigration.Control
