import SetterReport.Failure
import SetterReport.FileTree
import SetterReport.Metadata.Declaration
import SetterReport.Yaml.Load

/-!
# Metadata files

A metadata file is a YAML document. `ofValue` takes the records out of its
value, definition by definition in the order of the file; the first definition
of the wrong shape ends that, and the fault then names its key. Keys that are
no strings define nothing. `parse` starts from the text of a file, and `readFile`
from its path.
-/

namespace SetterReport.Metadata

open Yaml

/-! ## Levels of the document -/

/-- The field of the document that matters, if it is there. -/
def documentFields : Fields (Option (List (Value × Value))) where
  title := "struct OpenApiDocument".toList
  names := ["openAPI".toList]
  take _ _ v := optional sectionOf v
where
  /-- The definitions of the section; none of them if the field is left out. -/
  sectionOf : Value → Shaped (List (Value × Value)) :=
    sectionFields.read []
  /-- The field of the section that matters. -/
  sectionFields : Fields (List (Value × Value)) :=
    { title := "struct OpenApiSection".toList
      names := ["definitions".toList]
      take := fun _ _ v => mappingOf "a YAML mapping".toList v }

/-- The definitions of a document. -/
def definitionsOf (v : Value) : Shaped (List (Value × Value)) :=
  (documentFields.read none v).map (·.getD [])

/-! ## Records -/

/-- What is said of a definition of the wrong shape. -/
def inDefinition (key reason : Text) : Text :=
  "definition '".toList ++ key ++ "': ".toList ++ reason

/-- The records of one definition, if its key is a string. -/
def recordsOfEntry (entry : Value × Value) : Except Text Records :=
  match stringOf? entry.1 with
  | none => .ok {}
  | some key =>
    match Definition.read entry.2 with
    | .ok d => .ok (d.records key)
    | .error fault => .error (inDefinition key fault.text)

/-- The records of all definitions, up to the first fault. -/
def recordsOfEntries : List (Value × Value) → Except Text Records
  | [] => .ok {}
  | e :: rest =>
    match recordsOfEntry e with
    | .error reason => .error reason
    | .ok here => (recordsOfEntries rest).map (here ++ ·)

/-- The records that a document's value declares, or what is wrong with it. -/
def ofValue (v : Value) : Except Text Records :=
  match v.untagged with
  | .null => .ok {}
  | _ =>
    match definitionsOf v with
    | .error fault => .error fault.text
    | .ok definitions => recordsOfEntries definitions

/-- The records in the text of a metadata file; the path is for messages only. -/
def parse (path content : Text) : Except Failure Records :=
  match Value.read content with
  | none => .error (.metadataRefused path .malformed)
  | some v =>
    match ofValue v with
    | .ok records => .ok records
    | .error reason => .error (.metadataRefused path (.misshapen reason))

/-- The records in the metadata file at a path. -/
def readFile (tree : FileTree) (path : Path) : Except Failure Records :=
  match tree.readText path with
  | .error fault => .error (.ofFile path.spelling fault.report)
  | .ok content => parse path.spelling content

end SetterReport.Metadata
