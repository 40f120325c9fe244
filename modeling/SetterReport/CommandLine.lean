import SetterReport.Marker
import SetterReport.Path

/-!
# The command line

A command line is read level by level: first the options of the program, then a
subcommand with options and operands of its own. Two options may stand at
either level, `--openapi-file` and `--verbose`; where both levels give one, the
subcommand's counts, and any of them goes before the environment.

The words of a level are read from left to right by `scan`. A value is first
held back and only then *settled*, when the next thing comes: settling is where
a missing value, a repeated option and an unsuitable value are noticed. An
option that is not known is reported at once, before anything is settled.

`parse` answers with an `Invocation`, or with a `Stop`: a fault, or a request
for help or the version.
-/

namespace SetterReport.CommandLine

/-! ## What a command line asks for -/

/-- The shells that completions can be made for. -/
inductive Shell
  | bash
  | elvish
  | fish
  | powershell
  | zsh
deriving DecidableEq

namespace Shell

/-- All shells. -/
def all : List Shell := [bash, elvish, fish, powershell, zsh]

/-- The name of a shell. -/
def name : Shell → Text
  | bash => "bash".toList
  | elvish => "elvish".toList
  | fish => "fish".toList
  | powershell => "powershell".toList
  | zsh => "zsh".toList

/-- The shell of a name. -/
def ofName? (t : Text) : Option Shell :=
  all.find? (·.name == t)

end Shell

/-- What a report is asked to show. -/
structure ListArguments where
  /-- The directory below which packages are looked for. -/
  dir : Text
  /-- The only name to list, if one is given. -/
  name : Option Text
  markdown : Bool
  includeSubst : Bool
  failOnEmpty : Bool
deriving DecidableEq

/-- What the program is asked to do. -/
inductive Command
  | listSetters (arguments : ListArguments)
  | version
  | completions (shell : Shell)
deriving DecidableEq

/-- A command line that makes sense. -/
structure Invocation where
  /-- The configured marker name, if there is one. -/
  markerName : Option Text
  verbose : Bool
  command : Command
deriving DecidableEq

/-- The parts that a command line may have, and that help can be given on. -/
inductive Level
  | program
  | listSetters
  | version
  | completions
  | help
deriving DecidableEq

/-- Why a command line makes no sense. -/
inductive Fault
  | missingArgument
  | missingSubcommand
  | nothingGiven
  | unknownArgument
  | unknownSubcommand
  | invalidValue
  | tooManyValues
  | repeatedOption
deriving DecidableEq

/-- Why there is nothing to carry out. -/
inductive Stop
  | refused (fault : Fault)
  | showHelp (level : Level)
  | showVersion
deriving DecidableEq

/-- The environment variables that matter. -/
structure Environment where
  markerName : Option Text := none
  failOnEmpty : Option Text := none

/-- The environment variable that sets `--fail-on-empty`. -/
def failOnEmptyVariable : Text := "CFGMETA_FAIL_ON_EMPTY".toList

/-! ## The words of a level -/

/-- The things that can be set on a command line. -/
inductive Key
  | markerName
  | verbose
  | dir
  | name
  | markdown
  | includeSubst
  | failOnEmpty
  | shell
deriving DecidableEq

/-- What an option does. -/
inductive Switch
  | flag (key : Key)
  | valued (key : Key)
  | help
  | version
deriving DecidableEq

namespace Level

/-- The subcommand of a name. -/
def ofName? (t : Text) : Option Level :=
  if t == "list-setters".toList then some listSetters
  else if t == "version".toList then some version
  else if t == "completions".toList then some completions
  else if t == "help".toList then some help
  else none

/-- The options that only this level has. -/
def ownSwitch? (level : Level) (t : Text) : Option Switch :=
  match level with
  | program => if t == "version".toList then some .version else none
  | listSetters =>
    if t == "markdown".toList then some (.flag .markdown)
    else if t == "include-subst".toList then some (.flag .includeSubst)
    else if t == "fail-on-empty".toList then some (.flag .failOnEmpty)
    else none
  | completions => if t == "shell".toList then some (.valued .shell) else none
  | version => none
  | help => none

/-- The option of a name. -/
def switch? (level : Level) (t : Text) : Option Switch :=
  if t == "help".toList then some .help
  else if t == "openapi-file".toList then some (.valued .markerName)
  else if t == "verbose".toList then some (.flag .verbose)
  else level.ownSwitch? t

/-- The option of a letter. -/
def letter? (level : Level) (c : Char) : Option Switch :=
  match c with
  | 'h' => some .help
  | 'v' => some (.flag .verbose)
  | 'V' => if level = program then some .version else none
  | _ => none

/-- What the operands of a level are, in order. -/
def operands : Level → List Key
  | listSetters => [.dir, .name]
  | _ => []

end Level

/-- A word of the command line. -/
inductive Word
  /-- The two dashes after which everything is an operand. -/
  | separator
  | long (name : Text) (value : Option Text)
  | letters (cs : Text)
  | plain

/-- What a word is by its dashes; a single dash is an operand. -/
def Word.of : Text → Word
  | ['-', '-'] => .separator
  | '-' :: '-' :: rest =>
    match rest.span (· ≠ '=') with
    | (name, '=' :: value) => .long name (some value)
    | (name, _) => .long name none
  | '-' :: c :: cs => .letters (c :: cs)
  | _ => .plain

/-! ## Reading a level -/

/-- A value that is held back until the next thing comes. -/
structure Held where
  key : Key
  /-- The value; none as long as an option waits for it. -/
  value : Option Text
deriving DecidableEq

/-- How far a level has been read. -/
structure Scan where
  /-- What has been settled; flags have an empty value. -/
  given : List (Key × Text) := []
  held : Option Held := none
  /-- Whether everything is an operand from here on. -/
  isLiteral : Bool := false
  /-- The number of operands so far. -/
  operands : Nat := 0

/-- A step of reading. -/
abbrev Reading (α : Type) := Except Stop α

/-- Stops with a fault. -/
def refuse {α : Type} (fault : Fault) : Reading α :=
  .error (.refused fault)

/-- Whether a value suits. -/
def suits (key : Key) (value : Text) : Bool :=
  match key with
  | .dir => !value.isEmpty
  | .shell => (Shell.ofName? value).isSome
  | _ => true

namespace Scan

/-- Whether an option waits for its value. -/
def isWaiting (s : Scan) : Bool :=
  s.held.any (·.value.isNone)

/-- Whether something has been given. -/
def has (s : Scan) (key : Key) : Bool :=
  s.given.any (·.1 = key)

/-- The value that has been given. -/
def get? (s : Scan) (key : Key) : Option Text :=
  (s.given.find? (·.1 = key)).map (·.2)

/-- Takes a value, which must be new and suit. -/
def give (s : Scan) (key : Key) (value : Text) : Reading Scan :=
  if s.has key then refuse .repeatedOption
  else if suits key value then .ok { s with given := s.given ++ [(key, value)] }
  else refuse .invalidValue

/-- Settles what is held back. -/
def settle (s : Scan) : Reading Scan :=
  match s.held with
  | none => .ok s
  | some ⟨_, none⟩ => refuse .invalidValue
  | some ⟨key, some value⟩ => { s with held := none }.give key value

/-- Holds something back, after settling what was. -/
def hold (s : Scan) (h : Held) : Reading Scan :=
  s.settle.map fun s => { s with held := some h }

/-- Carries out an option without a value. -/
def act (level : Level) (s : Scan) : Switch → Reading Scan
  | .flag key => s.settle.bind fun s => s.give key []
  | .valued key => s.hold ⟨key, none⟩
  | .help => s.settle.bind fun _ => .error (.showHelp level)
  | .version => s.settle.bind fun _ => .error .showVersion

/-- Reads a long option. -/
def long (level : Level) (s : Scan) (name : Text) (value : Option Text) : Reading Scan :=
  match level.switch? name, value with
  | none, _ => refuse .unknownArgument
  | some (.valued key), some v => s.settle.bind fun s => s.give key v
  | some _, some _ => refuse .tooManyValues
  | some switch, none => s.act level switch

/-- Reads options of one letter. -/
def letters (level : Level) : Scan → Text → Reading Scan
  | s, [] => .ok s
  | s, c :: cs =>
    match level.letter? c with
    | none => refuse .unknownArgument
    | some switch => (s.act level switch).bind fun s => letters level s cs

/-- What is wrong with an operand that has no place. -/
def misplaced (level : Level) (s : Scan) (word : Text) : Fault :=
  if level = .program then
    if s.isLiteral && (Level.ofName? word).isSome then .unknownArgument else .unknownSubcommand
  else .unknownArgument

/-- Reads an operand. -/
def operand (level : Level) (s : Scan) (word : Text) : Reading Scan :=
  match level.operands[s.operands]? with
  | none => refuse (s.misplaced level word)
  | some key => (s.hold ⟨key, some word⟩).map fun s => { s with operands := s.operands + 1 }

/-- Reads a word that names no subcommand. -/
def word (level : Level) (s : Scan) (t : Text) : Reading Scan :=
  if s.isLiteral then s.operand level t
  else
    match Word.of t with
    | .separator => .ok { s with isLiteral := true }
    | .long name value => s.long level name value
    | .letters cs => s.letters level cs
    | .plain =>
      match s.held with
      | some ⟨key, none⟩ => .ok { s with held := some ⟨key, some t⟩ }
      | _ => s.operand level t

/-- The subcommand that a word names at this place. -/
def subcommand? (level : Level) (s : Scan) (t : Text) : Option Level :=
  if level = .program && !s.isLiteral && !s.isWaiting then Level.ofName? t else none

end Scan

/-- A level that has been read: what it gives, and the subcommand and words after it. -/
structure Scanned where
  scan : Scan
  next : Option (Level × List Text)

/-- Reads the words of a level, up to a subcommand. -/
def scan (level : Level) : Scan → List Text → Reading Scanned
  | s, [] => .ok ⟨s, none⟩
  | s, t :: rest =>
    match s.subcommand? level t with
    | some sub => .ok ⟨s, some (sub, rest)⟩
    | none => (s.word level t).bind fun s => scan level s rest

/-! ## The whole command line -/

/-- The level that words after `help` name. -/
def helpOn : List Text → Reading Level
  | [] => .ok .program
  | [t] =>
    match Level.ofName? t with
    | some level => .ok level
    | none => refuse .unknownSubcommand
  | _ => refuse .unknownSubcommand

/-- Whether a flag is set, by the command line or else by a variable. -/
def flagOr (s : Scan) (key : Key) (setting : Option Text) : Reading Bool :=
  if s.has key then .ok true
  else
    match setting with
    | none => .ok false
    | some t =>
      if t == "true".toList then .ok true
      else if t == "false".toList then .ok false
      else refuse .invalidValue

/-- The command that a level's words make. -/
def commandOf (env : Environment) (level : Level) (s : Scan) : Reading Command :=
  match level with
  | .listSetters => do
    let failOnEmpty ← flagOr s .failOnEmpty env.failOnEmpty
    match s.get? .dir with
    | none => refuse .missingArgument
    | some dir =>
      return .listSetters ⟨dir, s.get? .name, s.has .markdown, s.has .includeSubst, failOnEmpty⟩
  | .completions =>
    match (s.get? .shell).bind Shell.ofName? with
    | none => refuse .missingArgument
    | some shell => return .completions shell
  | _ => return .version

/-- Reads a subcommand from its words. -/
def parseCommand (env : Environment) (level : Level) (words : List Text) :
    Reading (Scan × Command) := do
  let read ← scan level {} words
  let s ← read.scan.settle
  let command ← commandOf env level s
  return (s, command)

/-- What is wrong when there is no subcommand. -/
def withoutCommand (env : Environment) (s : Scan) : Fault :=
  if s.given.isEmpty && env.markerName.isNone then .nothingGiven else .missingSubcommand

/-- Reads a command line. -/
def parse (env : Environment) (words : List Text) : Reading Invocation := do
  let top ← scan .program {} words
  match top.next with
  | none =>
    let s ← top.scan.settle
    refuse (withoutCommand env s)
  | some (.help, rest) =>
    let level ← helpOn rest
    .error (.showHelp level)
  | some (level, rest) =>
    let (sub, command) ← parseCommand env level rest
    let s ← top.scan.settle
    let markerName := ((sub.get? .markerName).or (s.get? .markerName)).or env.markerName
    return ⟨markerName, s.has .verbose || sub.has .verbose, command⟩

end SetterReport.CommandLine
