import SetterReport.FieldReference
import SetterReport.FileTree.Walk
import SetterReport.Log
import SetterReport.Record

/-!
# How often a setter is used

The fields that belong to a package are those in its resource files: the
`.yaml` and `.yml` files at or below its directory, but not the marker file and
not what lies in a directory that holds a marker file of its own. `collect`
lists the name that each such field refers to, once per line, so the number of
references to a name is the number of times it is listed.

Whether a directory holds a marker file is asked from that directory, by the
marker's name alone, and a visited file is read where it stands. So neither
depends on the length of the path that led there, and neither is refused for
lack of permission, which the tree does not have.

A field also uses a setter when it refers to a substitution that is composed of
it, directly or through other substitutions. `closure` finds these
substitutions: `targets` are the references known to lead to the setter,
`dependents` the names of the substitutions behind all but the first of them. A
pass over all substitutions adds those that point at a target; the closure is
reached when a pass adds nothing, which takes at most one pass more than there
are names to add.
-/

namespace SetterReport.Usage

open FileTree

/-! ## Collecting references -/

/-- The endings of the names of resource files. -/
def extensions : List Text := ["yaml".toList, "yml".toList]

/--
Whether a directory holds a marker file; links to files count. The marker's name
is resolved from the directory, so no limit on the path to the directory applies.
-/
def holdsMarker (marker : Text) (trail : Trail) : Bool :=
  isFileFrom trail marker

/-- The bytes of a visited resource file; none for anything else. -/
def resourceContent? (marker : Text) (v : Visit) : Option ByteArray :=
  match v.place with
  | .ok (.file content) =>
    if v.path.fileName? == some marker then none
    else if v.path.extension?.any extensions.contains then some content
    else none
  | _ => none

/-- The names that the lines of a text refer to. -/
def namesIn (text : Text) : List Text :=
  (Text.lines text).filterMap FieldReference.read

/-- References found on a walk, and what is told of files that were passed over. -/
structure References where
  names : List Text := []
  log : List LogLine := []

namespace References

/-- The number of references to a name. -/
def count (r : References) (name : Text) : Nat :=
  List.count name r.names

/-- What two walks found together. -/
def append (a b : References) : References :=
  ⟨a.names ++ b.names, a.log ++ b.log⟩

instance : Append References := ⟨append⟩

end References

/-- What one visited thing contributes. -/
def referencesOf (marker : Text) (v : Visit) : References :=
  match resourceContent? marker v with
  | none => {}
  | some content =>
    match decode content with
    | .ok text => ⟨namesIn text, []⟩
    | .error fault =>
      ⟨[], [.warning ("Skipping ".toList ++ v.path.spelling ++ ": ".toList ++ fault.report.text)]⟩

/-- The references of the package in a directory. -/
def collect (tree : FileTree) (directory : Path) (marker : Text) : References :=
  match tree.visits (holdsMarker marker) directory with
  | .ok vs => vs.foldr (fun v found => referencesOf marker v ++ found) {}
  | .error fault => ⟨[], [.warning (walkWarning directory fault)]⟩

/-! ## Substitutions that use a setter -/

/-- What is known to lead to a setter. -/
structure Reach where
  /-- The references that lead to the setter. -/
  targets : List Text
  /-- The names of the substitutions that lead to it. -/
  dependents : List Text
deriving DecidableEq

/-- Before the first pass only the setter leads to itself. -/
def Reach.initial (setter : Text) : Reach :=
  ⟨[Reference.ofSetter setter], []⟩

/-- Adds a substitution that points at a target, unless its name is known. -/
def Reach.add (r : Reach) (s : Substitution) : Reach :=
  if r.dependents.contains s.name then r
  else if s.references.any r.targets.contains then
    ⟨r.targets ++ [Reference.ofSubstitution s.name], r.dependents ++ [s.name]⟩
  else r

/-- One pass over all substitutions. -/
def Reach.pass (substitutions : List Substitution) (r : Reach) : Reach :=
  substitutions.foldl Reach.add r

/-- Passes until one adds nothing, at most `fuel` of them. -/
def Reach.saturate (substitutions : List Substitution) : (fuel : Nat) → Reach → Reach
  | 0, r => r
  | fuel + 1, r =>
    let next := r.pass substitutions
    if next = r then r else saturate substitutions fuel next

/-- All that leads to a setter. -/
def closure (setter : Text) (substitutions : List Substitution) : Reach :=
  (Reach.initial setter).saturate substitutions (substitutions.length + 1)

/-- The number of references to a setter, direct and through substitutions. -/
def count (setter : Text) (references : Text → Nat) (substitutions : List Substitution) : Nat :=
  references setter +
    (closure setter substitutions).dependents.foldr (fun name n => references name + n) 0

end SetterReport.Usage
