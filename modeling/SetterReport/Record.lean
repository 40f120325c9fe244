import SetterReport.Reference

/-!
# Setters and substitutions

A *setter* is a named value that fields of resource files take over: a scalar
or, when `listValues` is not empty, a list. A *substitution* is a named pattern
composed of setters and of other substitutions, which it points at by
references. Both are declared in the metadata file of a package.
-/

namespace SetterReport

/-- A named value declared in a metadata file. -/
structure Setter where
  name : Text := []
  /-- The scalar value; empty for a setter with a list of values. -/
  value : Text := []
  listValues : List Text := []
  /-- Who or what chose the current value. -/
  setBy : Text := []
  description : Text := []
  /-- The number of resource fields that follow the setter. -/
  count : Nat := 0
  required : Bool := false
deriving DecidableEq

namespace Setter

/-- A setter with at least one list value is list-valued. -/
def isList (s : Setter) : Bool :=
  !s.listValues.isEmpty

end Setter

/-- A named pattern composed of references to other definitions. -/
structure Substitution where
  name : Text := []
  pattern : Text := []
  /-- The references as they are stored, in order. -/
  references : List Text := []
deriving DecidableEq

/-- What one metadata file declares, in the order of the file. -/
structure Records where
  setters : List Setter := []
  substitutions : List Substitution := []
deriving DecidableEq

namespace Records

/-- The records of the first file followed by those of the second. -/
def append (a b : Records) : Records :=
  ⟨a.setters ++ b.setters, a.substitutions ++ b.substitutions⟩

instance : Append Records := ⟨append⟩

/-- The records with exactly this name; all of them when no name is asked for. -/
def named (name : Option Text) (r : Records) : Records :=
  match name with
  | none => r
  | some n => ⟨r.setters.filter (·.name == n), r.substitutions.filter (·.name == n)⟩

end Records

end SetterReport
