import SetterReport.FileTree

/-!
# Changing a file tree

`put` writes a node at a path and makes the directories that are missing on the
way; `remove` takes away whatever a path names. Both first turn the path into a
list of names from the top (`namesOf`), following links on the way, and then
change the tree along those names.
-/

namespace SetterReport.FileTree

/-- The tree below a list of names. -/
def below? : FileTree → List Text → Option FileTree
  | tree, [] => some tree
  | tree, name :: rest => (child? name tree.entries).bind (below? · rest)

/-- The entries with `node` under `name`. -/
def setEntry (name : Text) (node : FileTree) : Entries → Entries
  | [] => [(name, node)]
  | (n, old) :: rest => if n = name then (n, node) :: rest else (n, old) :: setEntry name node rest

/-- The tree with `node` below a list of names, in directories made as needed. -/
def setBelow (node : FileTree) : FileTree → List Text → FileTree
  | _, [] => node
  | tree, name :: rest =>
    let inner := (child? name tree.entries).getD (.directory [])
    .directory (setEntry name (setBelow node inner rest) tree.entries)

/-- The tree without what is below a list of names. -/
def dropBelow : FileTree → List Text → FileTree
  | tree, [] => tree
  | tree, [name] => .directory (tree.entries.filter (·.1 != name))
  | tree, name :: rest =>
    match child? name tree.entries with
    | some inner => .directory (setEntry name (dropBelow inner rest) tree.entries)
    | none => tree

/--
Turns steps into names from the top; `names` are those so far, innermost first.
A step that names nothing is kept, for it may be about to be made.
-/
def nameSteps (onLink : List Text → List Text → Option (List Text)) (followLast : Bool)
    (tree : FileTree) : List Text → List Text → Option (List Text)
  | names, [] => some names.reverse
  | names, step :: rest =>
    if Path.isIdle step then nameSteps onLink followLast tree names rest
    else if step == ['.', '.'] then nameSteps onLink followLast tree names.tail rest
    else
      match tree.below? (step :: names).reverse with
      | some (link target) =>
        if rest.isEmpty && !followLast then some (step :: names).reverse
        else onLink (if Path.isAbsolute target then [] else names) (Path.steps target ++ rest)
      | some (file _) => if rest.isEmpty then some (step :: names).reverse else none
      | _ => nameSteps onLink followLast tree (step :: names) rest

/-- Turns steps into names from the top, following at most `links` links. -/
def nameLinks (followLast : Bool) (tree : FileTree) :
    (links : Nat) → List Text → List Text → Option (List Text)
  | 0 => nameSteps (fun _ _ => none) followLast tree
  | links + 1 => nameSteps (nameLinks followLast tree links) followLast tree

/-- The names from the top that a path stands for. -/
def namesOf (followLast : Bool) (tree : FileTree) (path : Path) : Option (List Text) :=
  nameLinks followLast tree linkLimit [] (Path.steps path.spelling)

/--
Writes a node at a path. A file is written through a link, and a directory that
is there already keeps its entries.
-/
def put (tree : FileTree) (path : Path) (node : FileTree) : FileTree :=
  match node with
  | link _ =>
    match namesOf false tree path with
    | some names => setBelow node tree names
    | none => tree
  | file _ =>
    match namesOf true tree path with
    | some names => setBelow node tree names
    | none => tree
  | directory _ =>
    match namesOf true tree path with
    | some names => if (below? tree names).isSome then tree else setBelow node tree names
    | none => tree

/-- Takes away what a path names; none if there is nothing. -/
def remove (tree : FileTree) (path : Path) : Option FileTree :=
  match namesOf false tree path with
  | some names => if (below? tree names).isSome then some (dropBelow tree names) else none
  | none => none

end SetterReport.FileTree
