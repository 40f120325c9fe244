import SetterReport.Metadata.Shape
import SetterReport.Record
import SetterReport.Yaml.Printer

/-!
# Declarations in a metadata file

The setters and substitutions of a package are declared under
`openAPI.definitions`, each by an `x-k8s-cli` extension of a definition:

    openAPI:
      definitions:
        io.k8s.cli.setters.replicas:
          description: hello world
          x-k8s-cli:
            setter:
              name: replicas
              value: "3"

The types here follow that shape level by level. A text field may hold any
value; `textOf` is the text that a reader sees for it.
-/

namespace SetterReport.Metadata

open Yaml

/-- The text of a value: a scalar as it reads, a collection as a document of its own. -/
def textOf (v : Value) : Text :=
  match v with
  | .null => []
  | .bool true => "true".toList
  | .bool false => "false".toList
  | .number n => n.text
  | .string t => t
  | v => v.print.getD []

/-- The text of a field that may be left out. -/
def optionalText (v : Option Value) : Text :=
  (v.map textOf).getD []

/-! ## Setters -/

/-- What is said of a setter. -/
structure SetterDeclaration where
  name : Option Value := none
  value : Option Value := none
  listValues : List Value := []
  setBy : Option Value := none
  required : Bool := false

namespace SetterDeclaration

/-- The fields of a setter. -/
def fields : Fields SetterDeclaration where
  title := "struct SetterExtension".toList
  names := ["name".toList, "value".toList, "listValues".toList, "setBy".toList, "required".toList]
  take d field v :=
    if field == "name".toList then (anyOptional v).map fun x => { d with name := x }
    else if field == "value".toList then (anyOptional v).map fun x => { d with value := x }
    else if field == "listValues".toList then (sequenceOf v).map fun x => { d with listValues := x }
    else if field == "setBy".toList then (anyOptional v).map fun x => { d with setBy := x }
    else (truthOf v).map fun x => { d with required := x }

/-- Reads a setter. -/
def read : Value → Shaped SetterDeclaration :=
  fields.read {}

/--
The record of a setter declared under a key. Without a name of its own it has
that of the key; with list values it has no scalar one.
-/
def record (key : Text) (description : Option Value) (d : SetterDeclaration) : Setter where
  name := (d.name.map textOf).getD (Reference.nameOfKey Reference.setterKind key)
  value := if d.listValues.isEmpty then optionalText d.value else []
  listValues := d.listValues.map textOf
  setBy := optionalText d.setBy
  description := optionalText description
  count := 0
  required := d.required

end SetterDeclaration

/-! ## Substitutions -/

/-- The field that every component of a substitution must have. -/
def referenceField : Text := "ref".toList

/-- The fields of a component of a substitution. -/
def componentFields : Fields (Option Value) where
  title := "struct SubstitutionValue".toList
  names := [referenceField]
  take _ _ v := .ok (some v)

/-- Reads a component of a substitution, which is its reference. -/
def readComponent (v : Value) : Shaped Value :=
  match componentFields.read none v with
  | .error fault => .error fault
  | .ok none => .error (.missingField referenceField)
  | .ok (some reference) => .ok reference

/-- Reads the items of a sequence one by one, up to the first fault. -/
def readAll {α : Type} (read : Value → Shaped α) : List Value → Shaped (List α)
  | [] => .ok []
  | v :: rest =>
    match read v with
    | .error fault => .error fault
    | .ok x => (readAll read rest).map (x :: ·)

/-- What is said of a substitution. -/
structure SubstitutionDeclaration where
  name : Option Value := none
  pattern : Option Value := none
  values : List Value := []

namespace SubstitutionDeclaration

/-- The fields of a substitution. -/
def fields : Fields SubstitutionDeclaration where
  title := "struct SubstitutionExtension".toList
  names := ["name".toList, "pattern".toList, "values".toList]
  take d field v :=
    if field == "name".toList then (anyOptional v).map fun x => { d with name := x }
    else if field == "pattern".toList then (anyOptional v).map fun x => { d with pattern := x }
    else
      match sequenceOf v with
      | .error fault => .error fault
      | .ok items => (readAll readComponent items).map fun x => { d with values := x }

/-- Reads a substitution. -/
def read : Value → Shaped SubstitutionDeclaration :=
  fields.read {}

/-- The record of a substitution declared under a key. -/
def record (key : Text) (d : SubstitutionDeclaration) : Substitution where
  name := (d.name.map textOf).getD (Reference.nameOfKey Reference.substitutionKind key)
  pattern := optionalText d.pattern
  references := d.values.map textOf

end SubstitutionDeclaration

/-! ## Definitions -/

/-- The extension of a definition. -/
structure Extension where
  setter : Option SetterDeclaration := none
  substitution : Option SubstitutionDeclaration := none

namespace Extension

/-- The fields of an extension. -/
def fields : Fields Extension where
  title := "struct CliExtension".toList
  names := ["setter".toList, "substitution".toList]
  take e field v :=
    if field == "setter".toList then
      (optional SetterDeclaration.read v).map fun x => { e with setter := x }
    else (optional SubstitutionDeclaration.read v).map fun x => { e with substitution := x }

/-- Reads an extension. -/
def read : Value → Shaped Extension :=
  fields.read {}

end Extension

/-- A definition, as far as it matters. -/
structure Definition where
  description : Option Value := none
  extension : Option Extension := none

namespace Definition

/-- The fields of a definition. -/
def fields : Fields Definition where
  title := "struct Definition".toList
  names := ["description".toList, "x-k8s-cli".toList]
  take d field v :=
    if field == "description".toList then
      (anyOptional v).map fun x => { d with description := x }
    else (optional Extension.read v).map fun x => { d with extension := x }

/-- Reads a definition. -/
def read : Value → Shaped Definition :=
  fields.read {}

/-- The records that a definition under a key declares. -/
def records (key : Text) (d : Definition) : Records where
  setters := ((d.extension.bind (·.setter)).map
    (SetterDeclaration.record key d.description)).toList
  substitutions := ((d.extension.bind (·.substitution)).map
    (SubstitutionDeclaration.record key)).toList

end Definition

end SetterReport.Metadata
