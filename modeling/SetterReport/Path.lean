import SetterReport.Text.Basic

/-!
# Paths

A path keeps its spelling, because the spelling is what a reader sees. What it
means is its list of *components*: redundant slashes and `.` steps drop out,
except for a `.` at the very start. Two paths are the same when their
components are, and paths are ordered component by component, so a directory
comes directly before everything below it.

A spelling is taken apart once, by `split`, into its *lead* (the root, a first
`.`, or nothing) and the steps after it; `components`, `parent?` and
`fileName?` all read that one decomposition.
-/

namespace SetterReport

/-- A file path, as it is spelled. -/
structure Path where
  spelling : Text
deriving DecidableEq

namespace Path

/-! ## Components -/

/-- One step of a path. -/
inductive Component
  /-- The root that an absolute path starts from. -/
  | root
  /-- A `.` at the very start. -/
  | here
  /-- A step to the directory above. -/
  | up
  | name (t : Text)
deriving DecidableEq

/-- What a spelling starts with. -/
inductive Lead
  | root
  | here
  | none
deriving DecidableEq

namespace Lead

/-- The component that the lead stands for. -/
def components : Lead → List Component
  | root => [.root]
  | here => [.here]
  | none => []

/-- The spelling of a lead followed by the given steps. -/
def spell (lead : Lead) (steps : List Text) : Text :=
  match lead, steps with
  | root, _ => '/' :: Text.join ['/'] steps
  | here, [] => ['.']
  | here, _ => '.' :: '/' :: Text.join ['/'] steps
  | none, _ => Text.join ['/'] steps

end Lead

/-- Takes a spelling apart at its slashes. -/
def split : Text → Lead × List Text
  | '/' :: rest => (.root, Text.parts '/' rest)
  | ['.'] => (.here, [])
  | '.' :: '/' :: rest => (.here, Text.parts '/' rest)
  | t => (.none, Text.parts '/' t)

/-- The steps of a spelling, idle ones included. -/
def steps (spelling : Text) : List Text :=
  (split spelling).2

/-- Whether a step leads nowhere: an empty one, or a `.`. -/
def isIdle (step : Text) : Bool :=
  step.isEmpty || step == ['.']

/-- The component of a step that leads somewhere. -/
def component? (step : Text) : Option Component :=
  if isIdle step then none
  else if step == ['.', '.'] then some .up
  else some (.name step)

/-- The components of a path. -/
def components (p : Path) : List Component :=
  let (lead, steps) := split p.spelling
  lead.components ++ steps.filterMap component?

/-! ## Order -/

/-- A component as a sequence of numbers, whose order is that of the components. -/
def Component.key : Component → List Nat
  | root => [0]
  | here => [1]
  | up => [2]
  | name t => 3 :: t.map Char.toNat

/-- A path as a sequence of sequences, whose order is that of the paths. -/
def key (p : Path) : List (List Nat) :=
  p.components.map Component.key

/-- Whether a path is the other one or comes before it. -/
def le (p q : Path) : Bool :=
  !decide (q.key < p.key)

/-- Drops every path that is the same as the one before it. -/
def dropRepeats : List Path → List Path
  | [] => []
  | p :: rest =>
    match dropRepeats rest with
    | [] => [p]
    | q :: kept => if p.components = q.components then p :: kept else p :: q :: kept

/-- The paths in ascending order, each once. -/
def sorted (ps : List Path) : List Path :=
  dropRepeats (Text.sortBy le ps)

/-! ## Taking apart and putting together -/

/-- The steps from the last one backwards, without idle ones at the end of the path. -/
def stepsBack (steps : List Text) : List Text :=
  steps.reverse.dropWhile isIdle

/--
The path without its last component; none for the root and the empty path.
What remains loses its trailing idle steps too.
-/
def parent? (p : Path) : Option Path :=
  let (lead, steps) := split p.spelling
  match lead, stepsBack steps with
  | .here, [] => some ⟨[]⟩
  | _, [] => none
  | lead, _ :: before => some ⟨lead.spell (stepsBack before.reverse).reverse⟩

/-- The last component, if it is a name. -/
def fileName? (p : Path) : Option Text :=
  match stepsBack (split p.spelling).2 with
  | [] => none
  | step :: _ => if step == ['.', '.'] then none else some step

/--
The part of a name after its last dot. A dot at the start of a name opens no
extension.
-/
def extensionOf (name : Text) : Option Text :=
  match name.reverse.span (· ≠ '.') with
  | (_, []) => none
  | (_, [_]) => none
  | (after, _ :: _ :: _) => some after.reverse

/-- The extension of the path's file name. -/
def extension? (p : Path) : Option Text :=
  p.fileName?.bind extensionOf

/-- Whether a spelling starts at the root. -/
def isAbsolute (t : Text) : Bool :=
  t.head? == some '/'

/-- Goes on from a path; an absolute continuation replaces it. -/
def join (p : Path) (t : Text) : Path :=
  if isAbsolute t then ⟨t⟩
  else if p.spelling.isEmpty || p.spelling.getLast? == some '/' then ⟨p.spelling ++ t⟩
  else ⟨p.spelling ++ '/' :: t⟩

/-- The spelling of a directory, closed by a slash. -/
def asDirectory (p : Path) : Text :=
  if p.spelling.getLast? == some '/' then p.spelling else p.spelling ++ ['/']

end Path

end SetterReport
