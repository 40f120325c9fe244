import SetterReport.Failure
import SetterReport.Path

/-!
# File trees

A tree of files, directories and symbolic links stands for everything that a
run can read. Names within a directory are distinct.

`follow` is path resolution. The place reached so far is a *trail*: the
directories from the innermost outward, each given by its entries. A step by
name goes into the innermost directory, a step `..` drops it, and the top of
the tree stays where it is. A link puts the steps of its target in front of the
steps that remain; at most forty links are followed on the way to one file.

Every way to fail has its constructor in `Fault`, and `Fault.report` says what
a reader is told.

The tree idealises a file system. There are no devices, pipes or sockets in it,
everything may be read, and all names are texts. A path that is too long is
refused by `follow`, which is given its spelling. A place that has been reached
is looked into from there, by the name of an entry (`isFileFrom`) or the target
of a link (`behind`), however long the path to it is.
-/

namespace SetterReport

/-- A file, a directory or a symbolic link, with all that is below it. -/
inductive FileTree
  | file (content : ByteArray)
  | directory (entries : List (Text × FileTree))
  | link (target : Text)

namespace FileTree

/-- The named entries of a directory. -/
abbrev Entries := List (Text × FileTree)

/-- The entry of this name. -/
def child? (name : Text) (entries : Entries) : Option FileTree :=
  (entries.find? (·.1 == name)).map (·.2)

/-- Whether the tree is a directory itself, rather than a link to one. -/
def isDirectory : FileTree → Bool
  | directory _ => true
  | _ => false

/-! ## Faults -/

/-- Why a path leads nowhere, or to something that cannot be read as asked. -/
inductive Fault
  | notFound
  | notADirectory
  | isADirectory
  | tooManyLinks
  | nameTooLong
  | zeroCharacter
  | notText
deriving DecidableEq

namespace Fault

/-- What a reader is told. -/
def report : Fault → FileFault
  | notFound => ⟨true, "No such file or directory (os error 2)".toList⟩
  | notADirectory => ⟨false, "Not a directory (os error 20)".toList⟩
  | isADirectory => ⟨false, "Is a directory (os error 21)".toList⟩
  | tooManyLinks => ⟨false, "Too many levels of symbolic links (os error 40)".toList⟩
  | nameTooLong => ⟨false, "File name too long (os error 36)".toList⟩
  | zeroCharacter => ⟨false, "file name contained an unexpected NUL byte".toList⟩
  | notText => ⟨false, "stream did not contain valid UTF-8".toList⟩

end Fault

/-! ## Resolution -/

/-- The directories around a place, from the innermost outward. -/
abbrev Trail := List Entries

/-- What a path leads to. -/
inductive Place
  | file (content : ByteArray)
  /-- A directory, given by the trail whose innermost member it is. -/
  | directory (trail : Trail)
  /-- A link that was not followed, and the directories around it. -/
  | link (around : Trail) (target : Text)

/-- One directory outward; the top has nothing around it. -/
def outward : Trail → Trail
  | [] => []
  | [top] => [top]
  | _ :: rest => rest

/-- Where the steps of a path begin: at the top for an absolute one, else at the trail. -/
def start (trail : Trail) (spelling : Text) : Trail :=
  if Path.isAbsolute spelling then trail.getLast?.toList else trail

/-- The longest name of an entry, in bytes. -/
def longestName : Nat := 255

/-- The least length of a path that is too long, in bytes. -/
def tooLongPath : Nat := 4096

/-- The number of links that are followed on the way to one place. -/
def linkLimit : Nat := 40

/--
Takes the remaining steps from a place. `onLink` goes on behind a link; the
last step's link is followed only if `followLast` holds.
-/
def walkSteps (onLink : Trail → List Text → Except Fault Place) (followLast : Bool) :
    Trail → List Text → Except Fault Place
  | trail, [] => .ok (.directory trail)
  | trail, step :: rest =>
    if Path.isIdle step then walkSteps onLink followLast trail rest
    else if step == ['.', '.'] then walkSteps onLink followLast (outward trail) rest
    else if longestName < step.utf8Length then .error .nameTooLong
    else
      match child? step (trail.headD []) with
      | none => .error .notFound
      | some (directory entries) => walkSteps onLink followLast (entries :: trail) rest
      | some (file content) => if rest.isEmpty then .ok (.file content) else .error .notADirectory
      | some (link target) =>
        if rest.isEmpty && !followLast then .ok (.link trail target)
        else onLink (start trail target) (Path.steps target ++ rest)

/-- Takes the remaining steps, following at most `links` links. -/
def walkLinks (followLast : Bool) : (links : Nat) → Trail → List Text → Except Fault Place
  | 0 => walkSteps (fun _ _ => .error .tooManyLinks) followLast
  | links + 1 => walkSteps (walkLinks followLast links) followLast

/-- The place that a path leads to from a trail. -/
def follow (followLast : Bool) (trail : Trail) (spelling : Text) : Except Fault Place :=
  if spelling.contains '\x00' then .error .zeroCharacter
  else if spelling.isEmpty then .error .notFound
  else if tooLongPath ≤ spelling.utf8Length then .error .nameTooLong
  else walkLinks followLast linkLimit (start trail spelling) (Path.steps spelling)

/-- The place behind a link that stands in the innermost directory of a trail. -/
def behind (around : Trail) (target : Text) : Except Fault Place :=
  walkLinks true (linkLimit - 1) (start around target) (Path.steps target)

/-- The entries of a tree; a tree that is no directory has none. -/
def entries : FileTree → Entries
  | directory es => es
  | _ => []

/-- The place that a path leads to from the top, links followed. -/
def locate (tree : FileTree) (path : Path) : Except Fault Place :=
  follow true [tree.entries] path.spelling

/-- Whether a path leads to a file, links followed. -/
def isFileFrom (trail : Trail) (spelling : Text) : Bool :=
  match follow true trail spelling with
  | .ok (.file _) => true
  | _ => false

/-! ## Reading -/

/-- The text of a file's bytes. -/
def decode (content : ByteArray) : Except Fault Text :=
  match String.fromUTF8? content with
  | some s => .ok s.toList
  | none => .error .notText

/-- The text of what a place is. -/
def Place.readText : Place → Except Fault Text
  | .file content => decode content
  | .directory _ => .error .isADirectory
  | .link .. => .error .notFound

/-- Reads the file at a path as text. -/
def readText (tree : FileTree) (path : Path) : Except Fault Text :=
  (tree.locate path).bind Place.readText

end FileTree

end SetterReport
