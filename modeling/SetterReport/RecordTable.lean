import SetterReport.Record
import SetterReport.Table

/-!
# Tables of records

How setters and substitutions are laid out in a table: which columns there are
and what stands in them. The table of setters always shows its header; there is
no table of substitutions when there are none.
-/

namespace SetterReport

/-- Texts in square brackets, with commas between them. -/
def bracketList (items : List Text) : Text :=
  '[' :: Text.join [','] items ++ [']']

/-- A truth value for a reader. -/
def yesNo (b : Bool) : Text :=
  if b then "Yes".toList else "No".toList

namespace Setter

/-- The headers of the table of setters. -/
def headers : Table.Row :=
  ["NAME".toList, "VALUE".toList, "SET BY".toList, "DESCRIPTION".toList, "COUNT".toList,
    "REQUIRED".toList]

/-- The cells that show one setter. -/
def row (s : Setter) : Table.Row :=
  [s.name, if s.isList then bracketList s.listValues else s.value, s.setBy, s.description,
    Text.ofNat s.count, yesNo s.required]

/-- The table of setters. -/
def table (format : Table.Format) (setters : List Setter) : Text :=
  Table.text format headers (setters.map row)

theorem length_row (s : Setter) : s.row.length = headers.length := rfl

end Setter

namespace Substitution

/-- The headers of the table of substitutions. -/
def headers : Table.Row :=
  ["SUBSTITUTION".toList, "PATTERN".toList, "REFERENCES".toList]

/-- The cells that show one substitution. -/
def row (s : Substitution) : Table.Row :=
  [s.name, s.pattern, bracketList (s.references.map Reference.display)]

/-- The table of substitutions; nothing when there are none. -/
def table (format : Table.Format) : List Substitution → Text
  | [] => []
  | substitutions => Table.text format headers (substitutions.map row)

theorem length_row (s : Substitution) : s.row.length = headers.length := rfl

end Substitution

end SetterReport
