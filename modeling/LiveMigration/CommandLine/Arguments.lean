import LiveMigration.Path

/-!
Command lines. Options come before the command or after it, each where it belongs; none may
come twice. The value of an option is attached with an equals sign or is the next argument,
which then must not look like an option itself. Behind `--` nothing is an option.
-/

namespace LiveMigration.CommandLine

/-- Why there is nothing to carry out. -/
inductive Stop
  | usage
  | help
  | version
  deriving DecidableEq, Repr

/-- Whether an option takes a value, and whether that may be empty. -/
inductive Arity
  | flag
  | value
  | nonemptyValue
  deriving DecidableEq, Repr

structure OptionForm where
  long : String
  short : Option Char
  arity : Arity
  deriving DecidableEq, Repr

/-- The options that are known before a command or after it. -/
structure Level where
  options : List OptionForm
  words : Nat
  versioned : Bool
  deriving DecidableEq, Repr

/-- The options found so far with their values, and the words. -/
structure Found where
  values : List (String × String)
  words : List String
  deriving DecidableEq, Repr

namespace Found

def none : Found := ⟨[], []⟩

def has (f : Found) (name : String) : Bool := f.values.any (·.1 == name)

def value? (f : Found) (name : String) : Option String := f.values.lookup name

def add (f : Found) (form : OptionForm) (value : String) : Except Stop Found :=
  if f.has form.long then .error .usage
  else if form.arity = .nonemptyValue ∧ value.isEmpty then .error .usage
  else .ok { f with values := f.values ++ [(form.long, value)] }

def addWord (f : Found) (level : Level) (word : String) : Except Stop Found :=
  if f.words.length < level.words then .ok { f with words := f.words ++ [word] }
  else .error .usage

def addWords (f : Found) (level : Level) : List String → Except Stop Found
  | [] => .ok f
  | word :: rest => do
    let f ← f.addWord level word
    f.addWords level rest

end Found

def looksLikeOption (arg : String) : Bool :=
  match arg.toList with
  | '-' :: _ :: _ => true
  | _ => false

def cutAtEquals (cs : List Char) : String × Option String :=
  match cs.dropWhile (· != '=') with
  | [] => (String.ofList cs, none)
  | _ :: value => (String.ofList (cs.takeWhile (· != '=')), some (String.ofList value))

inductive Piece
  | complete (f : Found)
  /-- The next argument is the value of this option. -/
  | awaiting (f : Found) (form : OptionForm)

def readLong (level : Level) (f : Found) (cs : List Char) : Except Stop Piece :=
  let (name, value) := cutAtEquals cs
  if name = "help" ∧ value.isNone then .error .help
  else if name = "version" ∧ value.isNone ∧ level.versioned then .error .version
  else
    match level.options.find? (·.long == name), value with
    | none, _ => .error .usage
    | some form, none =>
      if form.arity = .flag then (f.add form "").map .complete else .ok (.awaiting f form)
    | some form, some value =>
      if form.arity = .flag then .error .usage else (f.add form value).map .complete

/-- A group of short options, of which the last one may have its value attached. -/
def readShort (level : Level) (f : Found) : List Char → Except Stop Piece
  | [] => .ok (.complete f)
  | c :: cs =>
    if c = 'h' then .error .help
    else if c = 'V' ∧ level.versioned then .error .version
    else
      match level.options.find? (·.short == some c) with
      | none => .error .usage
      | some form =>
        if form.arity = .flag then do
          let f ← f.add form ""
          readShort level f cs
        else
          match cs with
          | [] => .ok (.awaiting f form)
          | '=' :: value => (f.add form (String.ofList value)).map .complete
          | value => (f.add form (String.ofList value)).map .complete

/-- Reads options and words up to the end, or up to the first word if none is expected. -/
def readLevel (level : Level) (f : Found) : List String → Except Stop (Found × List String)
  | [] => .ok (f, [])
  | arg :: rest =>
    if arg = "--" then do
      let f ← f.addWords level rest
      return (f, [])
    else if looksLikeOption arg then do
      let piece ← match arg.toList with
        | '-' :: '-' :: cs => readLong level f cs
        | cs => readShort level f (cs.drop 1)
      match piece, rest with
      | .complete f, rest => readLevel level f rest
      | .awaiting _ _, [] => .error .usage
      | .awaiting f form, value :: rest =>
        if looksLikeOption value then .error .usage
        else do
          let f ← f.add form value
          readLevel level f rest
    else if level.words = 0 then .ok (f, arg :: rest)
    else do
      let f ← f.addWord level arg
      readLevel level f rest

inductive Command
  | run (id : String) (bundle : Path)
  | listen
  | join (source : String) (bundle : Path)
  | migrate (id : String)
  | checkpoint
  | validate (file : String)
  deriving DecidableEq, Repr

structure Invocation where
  config : String
  verbose : Bool
  command : Command
  deriving DecidableEq, Repr

def defaultConfig : String := "cmig.yaml"

def globalLevel : Level :=
  ⟨[⟨"config", some 'c', .value⟩, ⟨"verbose", some 'v', .flag⟩], 0, true⟩

def containerOption : OptionForm := ⟨"container-id", none, .value⟩

def bundleOption : OptionForm := ⟨"bundle-path", none, .nonemptyValue⟩

def sourceOption : OptionForm := ⟨"source", none, .value⟩

def levelOf? (name : String) : Option Level :=
  [("run", ⟨[containerOption, bundleOption], 0, false⟩), ("listen", ⟨[], 0, false⟩),
    ("join", ⟨[sourceOption, bundleOption], 0, false⟩), ("migrate", ⟨[containerOption], 0, false⟩),
    ("checkpoint", ⟨[], 0, false⟩), ("validate", ⟨[], 1, false⟩)].lookup name

def Found.bundle (f : Found) : Path := .ofText ((f.value? bundleOption.long).getD ".")

/-- The command of that name; none if something is missing. -/
def commandOf? (name : String) (f : Found) : Option Command :=
  match name, f.words with
  | "run", [] => do return .run (← f.value? containerOption.long) f.bundle
  | "listen", [] => some .listen
  | "join", [] => do return .join (← f.value? sourceOption.long) f.bundle
  | "migrate", [] => do return .migrate (← f.value? containerOption.long)
  | "checkpoint", [] => some .checkpoint
  | "validate", [file] => some (.validate file)
  | _, _ => none

def readCommand : List String → Except Stop Command
  | [] => .error .usage
  | ["help"] => .error .help
  | ["help", name] =>
    .error (if name = "help" ∨ (levelOf? name).isSome then .help else .usage)
  | name :: args =>
    match levelOf? name with
    | none => .error .usage
    | some level => do
      match ← readLevel level .none args with
      | (f, []) =>
        match commandOf? name f with
        | some command => return command
        | none => .error .usage
      | (_, _ :: _) => .error .usage

def Invocation.ofArguments (args : List String) : Except Stop Invocation := do
  let (f, rest) ← readLevel globalLevel .none args
  let command ← readCommand rest
  return ⟨(f.value? "config").getD defaultConfig, f.has "verbose", command⟩

end LiveMigration.CommandLine
