import SetterReport.Metadata
import SetterReport.Usage

/-!
# Extracting the records of a package

The records declared in a metadata file, those of one name only if a name is
asked for, with the usage counts of the setters filled in. The fields that
count lie in the directory of the metadata file, and all substitutions of the
file lead to setters, whatever name is asked for.
-/

namespace SetterReport.Extraction

/-- Records with their counts, and what is told of the search for them. -/
structure Extracted where
  records : Records
  log : List LogLine

/-- The directory whose fields count for a metadata file. -/
def directoryOf (path : Path) : Path :=
  path.parent?.getD ⟨['.']⟩

/-- The name by which the directories of other packages are recognised. -/
def markerOf (path : Path) : Text :=
  path.fileName?.getD []

/-- What is told of an extraction. -/
def summary (path : Path) (r : Records) : LogLine :=
  .debug ("Extracted ".toList ++ Text.ofNat r.setters.length ++ " setter(s) and ".toList ++
    Text.ofNat r.substitutions.length ++ " substitution(s) from ".toList ++ path.spelling)

/-- A setter with the number of fields that follow it. -/
def withCount (references : Text → Nat) (substitutions : List Substitution) (s : Setter) : Setter :=
  { s with count := Usage.count s.name references substitutions }

/-- Extracts from what the metadata file at a path is known to declare. -/
def extractFrom (tree : FileTree) (declared : Records) (path : Path) (name : Option Text) :
    Extracted :=
  let kept := declared.named name
  match kept.setters with
  | [] => ⟨kept, [summary path kept]⟩
  | setters =>
    let found := Usage.collect tree (directoryOf path) (markerOf path)
    let counted := setters.map (withCount found.count declared.substitutions)
    ⟨⟨counted, kept.substitutions⟩, found.log ++ [summary path kept]⟩

/-- Extracts from the metadata file at a path. -/
def extract (tree : FileTree) (path : Path) (name : Option Text) : Except Failure Extracted :=
  match Metadata.readFile tree path with
  | .error failure => .error failure
  | .ok declared => .ok (extractFrom tree declared path name)

end SetterReport.Extraction
