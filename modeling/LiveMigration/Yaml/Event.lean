import LiveMigration.Yaml.Lexer

/-!
The nodes of a YAML document as a flat list of events, in the order of the text. What stands
behind a fault in the text is missing from the list. No value of a configuration is a
sequence, so the list also ends where one begins.
-/

namespace LiveMigration.Yaml

inductive Event
  | scalar (text : String) (style : Style) (tag : Option Bytes)
  | alias (anchor : Nat)
  | mappingStart
  | mappingEnd
  | sequence
  deriving DecidableEq, Repr

namespace Event

def absent : Event := .scalar "" .plain none

end Event

structure Document where
  events : List Event
  /-- For anchor numbers, the event that each stands for. -/
  places : List (Nat × Nat)
  /-- The text is well formed and holds no other document. -/
  sound : Bool
  deriving Repr

inductive Goal
  | node (block afterKey : Bool)
  | blockKey
  | blockValue
  | flowKey (first : Bool)
  | flowValue (leftOut : Bool)
  deriving DecidableEq, Repr

structure Composer where
  events : List Event
  count : Nat
  shorthands : List (String × Bytes)
  /-- The numbers of the anchors; a name that comes again gets a new number. -/
  anchors : List (String × Nat)
  places : List (Nat × Nat)
  deriving Repr

namespace Composer

def standardShorthands : List (String × Bytes) :=
  [("!", Bytes.ofText "!"), ("!!", Bytes.ofText "tag:yaml.org,2002:")]

def start (shorthands : List (String × Bytes)) : Composer :=
  ⟨[], 0, shorthands ++ standardShorthands, [], []⟩

def emit (s : Composer) (e : Event) : Composer :=
  { s with events := e :: s.events, count := s.count + 1 }

def name (s : Composer) : Option String → Composer
  | none => s
  | some anchor =>
    let number := s.anchors.length
    { s with
      anchors := (anchor, number) :: s.anchors.filter (·.1 ≠ anchor)
      places := (number, s.count) :: s.places }

def expand? (s : Composer) (handle : String) (suffix : Bytes) : Option Bytes :=
  if handle.isEmpty then some suffix else (s.shorthands.lookup handle).map (· ++ suffix)

structure Properties where
  anchor : Option String
  tag : Option (String × Bytes)

def properties : List Token → Properties × List Token
  | .anchor a :: .tag h u :: rest => (⟨some a, some (h, u)⟩, rest)
  | .tag h u :: .anchor a :: rest => (⟨some a, some (h, u)⟩, rest)
  | .anchor a :: rest => (⟨some a, none⟩, rest)
  | .tag h u :: rest => (⟨none, some (h, u)⟩, rest)
  | rest => (⟨none, none⟩, rest)

/-- A step: the state, the goals and the tokens left; none where the text is at fault or the
reading ends. -/
abbrev Step := Composer × Option (List Goal × List Token)

def stop (s : Composer) : Step := (s, none)

def isSpecific (tag : Option Bytes) : Option Bytes := tag.filter (· ≠ Bytes.ofText "!")

def node (s : Composer) (block afterKey : Bool) (goals : List Goal) (tokens : List Token) : Step :=
  match tokens with
  | .alias a :: rest =>
    match s.anchors.lookup a with
    | some number => (s.emit (.alias number), some (goals, rest))
    | none => s.stop
  | tokens =>
    let (given, rest) := properties tokens
    match given.tag.map fun (handle, suffix) => s.expand? handle suffix with
    | some none => s.stop
    | expanded =>
      let tag := expanded.join
      let named := s.name given.anchor
      match rest with
      | .scalar text style :: rest =>
        (named.emit (.scalar text style (isSpecific tag)), some (goals, rest))
      | .flowSequenceStart :: _ => (named.emit .sequence).stop
      | .flowMappingStart :: rest =>
        (named.emit .mappingStart, some (.flowKey true :: goals, rest))
      | .blockSequenceStart :: _ =>
        if block then (named.emit .sequence).stop else s.stop
      | .blockMappingStart :: rest =>
        if block then (named.emit .mappingStart, some (.blockKey :: goals, rest)) else s.stop
      | [] => s.stop
      | t :: rest =>
        if afterKey ∧ t = .blockEntry then (named.emit .sequence).stop
        else if given.anchor.isSome ∨ given.tag.isSome then
          (named.emit (.scalar "" .plain tag), some (goals, t :: rest))
        else s.stop

/-- A node, or nothing if one of some tokens comes first. -/
def nodeUnless (s : Composer) (ends : List Token) (goal : Goal) (goals : List Goal) :
    List Token → Step
  | [] => s.stop
  | t :: rest =>
    if ends.contains t then (s.emit .absent, some (goals, t :: rest))
    else (s, some (goal :: goals, t :: rest))

def flowKey (s : Composer) (goals : List Goal) : List Token → Step
  | .flowMappingEnd :: rest => (s.emit .mappingEnd, some (goals, rest))
  | .key :: rest =>
    s.nodeUnless [.value, .flowEntry, .flowMappingEnd] (.node false false)
      (.flowValue false :: goals) rest
  | [] => s.stop
  | rest => (s, some (.node false false :: .flowValue true :: goals, rest))

def step (s : Composer) (goals : List Goal) : Goal → List Token → Step
  | .node block afterKey, tokens => s.node block afterKey goals tokens
  | .blockKey, .key :: rest =>
    s.nodeUnless [.key, .value, .blockEnd] (.node true true) (.blockValue :: goals) rest
  | .blockKey, .blockEnd :: rest => (s.emit .mappingEnd, some (goals, rest))
  | .blockKey, _ => s.stop
  | .blockValue, .value :: rest =>
    s.nodeUnless [.key, .value, .blockEnd] (.node true true) (.blockKey :: goals) rest
  | .blockValue, [] => s.stop
  | .blockValue, rest => (s.emit .absent, some (.blockKey :: goals, rest))
  | .flowKey true, rest => s.flowKey goals rest
  | .flowKey false, .flowEntry :: rest => s.flowKey goals rest
  | .flowKey false, .flowMappingEnd :: rest => (s.emit .mappingEnd, some (goals, rest))
  | .flowKey false, _ => s.stop
  | .flowValue _, [] => s.stop
  | .flowValue false, .value :: rest =>
    s.nodeUnless [.flowEntry, .flowMappingEnd] (.node false false) (.flowKey false :: goals) rest
  | .flowValue _, rest => (s.emit .absent, some (.flowKey false :: goals, rest))

/-- Works off the goals; the answer holds the tokens left if all goals were reached. -/
def run : Nat → Composer → List Goal → List Token → Composer × Option (List Token)
  | 0, s, _, _ => (s, none)
  | _, s, [], rest => (s, some rest)
  | fuel + 1, s, goal :: goals, tokens =>
    match s.step goals goal tokens with
    | (s, some (goals, rest)) => run fuel s goals rest
    | (s, none) => (s, none)

end Composer

namespace Document

def faulty : Document := ⟨[], [], false⟩

/-- The directives in front of a document; each comes once, and the version is known. -/
def directives (version : Bool) (shorthands : List (String × Bytes)) :
    List Token → Option (List (String × Bytes) × List Token)
  | .version major minor :: rest =>
    if version ∨ major ≠ 1 ∨ (minor ≠ 1 ∧ minor ≠ 2) then none
    else directives true shorthands rest
  | .tagShorthand handle expansion :: rest =>
    if shorthands.any (·.1 = handle) then none
    else directives version ((handle, expansion) :: shorthands) rest
  | rest => some (shorthands, rest)

def endsStream (rest : List Token) : Bool :=
  (rest.dropWhile (· = .documentEnd)).head? = some .streamEnd

def ofRoot (shorthands : List (String × Bytes)) (tokens : List Token) : Document :=
  let (s, rest) :=
    Composer.run (4 * tokens.length + 8) (.start shorthands) [.node true false] tokens
  ⟨s.events.reverse, s.places, (rest.map endsStream).getD false⟩

def isContentEnd : Token → Bool
  | .version _ _ | .tagShorthand _ _ | .documentStart | .documentEnd | .streamEnd => true
  | _ => false

def ofContent (shorthands : List (String × Bytes)) : List Token → Document
  | [] => faulty
  | t :: rest =>
    if isContentEnd t then ⟨[.absent], [], endsStream (t :: rest)⟩
    else ofRoot shorthands (t :: rest)

def ofTokens : List Token → Document
  | .streamStart :: .streamEnd :: _ => ⟨[.absent], [], true⟩
  | .streamStart :: rest =>
    match rest with
    | .version _ _ :: _ | .tagShorthand _ _ :: _ | .documentStart :: _ =>
      match directives false [] rest with
      | some (shorthands, .documentStart :: rest) => ofContent shorthands rest
      | _ => faulty
    | [] => faulty
    | rest => ofRoot [] rest
  | _ => faulty

def ofText (text : String) : Document := ofTokens (tokens text.toList)

end Document

end LiveMigration.Yaml
