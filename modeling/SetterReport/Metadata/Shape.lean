import SetterReport.Text.Quoted
import SetterReport.Yaml.Value

/-!
# The shape of values

What a document has to look like is checked field by field. Tags do not matter
for the shape, and null stands for an empty mapping, an empty sequence, or a
field that is left out. `Fields.read` goes through a mapping in its order: fields that
are not known are passed over, whatever they hold, a known one must not come
twice, and the first fault ends the check.
-/

namespace SetterReport.Metadata

open Yaml

/-- In what way a value has the wrong shape. -/
inductive ShapeFault
  | wrongKind (found : Value) (expected : Text)
  | repeatedField (name : Text)
  | missingField (name : Text)

namespace ShapeFault

/-- What a value is, in a message. -/
def describe : Value → Text
  | .null => "unit value".toList
  | .bool b => "boolean `".toList ++ (if b then "true".toList else "false".toList) ++ ['\x60']
  | .number (.integer i) => "integer `".toList ++ (Number.integer i).plainText ++ ['\x60']
  | .number n => "floating point `".toList ++ n.plainText ++ ['\x60']
  | .string t => "string ".toList ++ Text.quote t
  | .sequence _ => "sequence".toList
  | .mapping _ => "map".toList
  | .tagged .. => "enum".toList

/-- The fault as one phrase. -/
def text : ShapeFault → Text
  | wrongKind found expected =>
    "invalid type: ".toList ++ describe found ++ ", expected ".toList ++ expected
  | repeatedField name => "duplicate field `".toList ++ name ++ ['\x60']
  | missingField name => "missing field `".toList ++ name ++ ['\x60']

end ShapeFault

/-- A value of the right shape, or the first fault. -/
abbrev Shaped (α : Type) := Except ShapeFault α

/-! ## Simple shapes -/

/-- The entries of a mapping; null has none. -/
def mappingOf (expected : Text) (v : Value) : Shaped (List (Value × Value)) :=
  match v.untagged with
  | .mapping entries => .ok entries
  | .null => .ok []
  | other => .error (.wrongKind other expected)

/-- The items of a sequence; null has none. -/
def sequenceOf (v : Value) : Shaped (List Value) :=
  match v.untagged with
  | .sequence items => .ok items
  | .null => .ok []
  | other => .error (.wrongKind other "a sequence".toList)

/-- A truth value. -/
def truthOf (v : Value) : Shaped Bool :=
  match v.untagged with
  | .bool b => .ok b
  | other => .error (.wrongKind other "a boolean".toList)

/-- A value, unless it is null without a tag. -/
def optional {α : Type} (shape : Value → Shaped α) : Value → Shaped (Option α)
  | .null => .ok none
  | v => (shape v).map some

/-- Any value, unless it is null without a tag. -/
def anyOptional : Value → Shaped (Option Value) :=
  optional .ok

/-- The text of a string, tags ignored. -/
def stringOf? (v : Value) : Option Text :=
  match v.untagged with
  | .string t => some t
  | _ => none

/-! ## Fields -/

/-- How a mapping with known fields is read into a record. -/
structure Fields (α : Type) where
  /-- What the mapping is called in messages. -/
  title : Text
  names : List Text
  /-- Takes the value of a known field into the record. -/
  take : α → Text → Value → Shaped α

namespace Fields

/-- Reads entries, knowing which fields have been there. -/
def readFrom {α : Type} (f : Fields α) : (seen : List Text) → α → List (Value × Value) → Shaped α
  | _, record, [] => .ok record
  | seen, record, (k, v) :: rest =>
    match stringOf? k with
    | none => .error (.wrongKind k.untagged "field identifier".toList)
    | some name =>
      if !f.names.contains name then readFrom f seen record rest
      else if seen.contains name then .error (.repeatedField name)
      else
        match f.take record name v with
        | .error fault => .error fault
        | .ok record => readFrom f (name :: seen) record rest

/-- Reads a mapping into a record that has a value for all fields that are left out. -/
def read {α : Type} (f : Fields α) (start : α) (v : Value) : Shaped α :=
  match mappingOf f.title v with
  | .error fault => .error fault
  | .ok entries => f.readFrom [] start entries

end Fields

end SetterReport.Metadata
