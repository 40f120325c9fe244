import SetterReport.FileTree

/-!
# Walking a file tree

`visits` lists everything at and below a path: each directory before its
entries, the entries in the order of their names. Links are listed and not
entered, with one exception: a walk that starts at a link to a directory goes
into it. A predicate may close directories, all but the first, to the walk.

Sorting happens on the finished lists of the entries, not before the
recursion, so the walk is a recursion on the tree itself.

Only the path where a walk starts is resolved. What lies below is taken from the
tree: the paths spelled on the way may have any length, and as everything may be
read, a walk that has started meets all that the predicate leaves open.
-/

namespace SetterReport.FileTree

/-- One thing met on a walk. -/
structure Visit where
  /-- The path by which it was reached. -/
  path : Path
  node : FileTree
  /-- The directories around it, from the innermost outward. -/
  around : Trail

namespace Visit

/-- The last name of the path; a path without one stands for itself. -/
def name (v : Visit) : Text :=
  v.path.fileName?.getD v.path.spelling

/-- What the visited thing is, links followed. -/
def place (v : Visit) : Except Fault Place :=
  match v.node with
  | .file content => .ok (.file content)
  | .directory entries => .ok (.directory (entries :: v.around))
  | .link target => behind v.around target

end Visit

/-- Whether one entry's name comes no later than another's. -/
def nameLe {α : Type} (a b : Text × α) : Bool :=
  !decide (b.1 < a.1)

/-- The members of named lists, the lists in the order of their names. -/
def inNameOrder {α : Type} (lists : List (Text × List α)) : List α :=
  (Text.sortBy nameLe lists).flatMap (·.2)

mutual

/-- What a walk meets at and below one node. -/
def visitsAt (closed : Trail → Bool) (path : Path) (around : Trail) : FileTree → List Visit
  | directory entries =>
    ⟨path, directory entries, around⟩ ::
      inNameOrder (visitsIn closed path (entries :: around) entries)
  | file content => [⟨path, file content, around⟩]
  | link target => [⟨path, link target, around⟩]
termination_by structural tree => tree

/-- What a walk meets below each of some entries of the directory at `path`. -/
def visitsIn (closed : Trail → Bool) (path : Path) (around : Trail) :
    List (Text × FileTree) → List (Text × List Visit)
  | [] => []
  | (name, node) :: rest =>
    (name, if node.isDirectory && closed (node.entries :: around) then []
      else visitsAt closed (path.join name) around node) ::
      visitsIn closed path around rest
termination_by structural entries => entries

end

/-- What a walk from a path meets; the fault if it cannot even start. -/
def visits (tree : FileTree) (closed : Trail → Bool) (root : Path) :
    Except Fault (List Visit) :=
  match follow false [tree.entries] root.spelling with
  | .error fault => .error fault
  | .ok (.file content) => .ok [⟨root, file content, []⟩]
  | .ok (.directory trail) => .ok (visitsAt closed root trail.tail (directory (trail.headD [])))
  | .ok (.link around target) =>
    match follow true [tree.entries] root.spelling with
    | .error fault => .error fault
    | .ok (.directory trail) =>
      .ok (⟨root, link target, around⟩ ::
        inNameOrder (visitsIn closed root trail (trail.headD [])))
    | .ok _ => .ok [⟨root, link target, around⟩]

/-- What is told of a walk that cannot start. -/
def walkWarning (root : Path) (fault : Fault) : Text :=
  "Skipping unreadable entry: IO error for operation on ".toList ++ root.spelling ++
    ": ".toList ++ fault.report.text

end SetterReport.FileTree
