import SetterReport.FileTree.Walk
import SetterReport.Log

/-!
# Packages

A *package* is a directory that directly holds an entry named like the marker
file and not itself a directory. `markerFiles` finds these entries at and below
a root by a walk that follows no links; `directories` lists the directories
that hold them, each once and in path order.
-/

namespace SetterReport.Package

open FileTree

/-- Whether a visited entry marks its directory as a package. -/
def isMarker (marker : Text) (v : Visit) : Bool :=
  !v.node.isDirectory && v.name == marker

/-- The paths of all marker entries at and below a directory. -/
def markerFiles (tree : FileTree) (root : Path) (marker : Text) : Except Failure (List Path) :=
  match tree.locate root with
  | .error fault => .error (.ofFile root.spelling fault.report)
  | .ok (.directory _) =>
    match tree.visits (fun _ => false) root with
    | .ok vs => .ok ((vs.filter (isMarker marker)).map Visit.path)
    | .error fault => .error (.ofFile root.spelling fault.report)
  | .ok _ => .error (.ofFile root.spelling Fault.notADirectory.report)

/-- The package directories at and below a directory, in path order. -/
def directories (tree : FileTree) (root : Path) (marker : Text) : Except Failure (List Path) :=
  match markerFiles tree root marker with
  | .error failure => .error failure
  | .ok files =>
    match files.filterMap Path.parent? with
    | [] => .error (.markerNotFound marker root.spelling)
    | parents => .ok (Path.sorted parents)

/-- What is told of the packages that were found. -/
def foundLine (marker : Text) (root : Path) (packages : List Path) : LogLine :=
  .debug ("Found ".toList ++ Text.ofNat packages.length ++ " package(s) with ".toList ++ marker ++
    " under ".toList ++ root.spelling)

/-- The path of the metadata file in a package's directory. -/
def metadataPath (directory : Path) (marker : Text) : Path :=
  directory.join marker

end SetterReport.Package
