import SetterReport.Json

/-!
# References from resource fields

A field of a resource file follows a setter or a substitution when its line
ends in a comment that holds a small JSON object naming it, such as

    replicas: 3 # {"$openapi":"replicas"}

A `#` can open a comment at the start of the line or after a blank. Since a `#`
may also stand in the value of the field, every candidate is tried, from left
to right, and the first whose tail is an object with a reference decides.
-/

namespace SetterReport.FieldReference

/-- The members that name a definition, the preferred one first. -/
def keys : List Text := ["$openapi".toList, "$kpt-set".toList]

/--
The texts after each `#` that can open a comment. `opens` says whether one at
the very start of the text could.
-/
def commentTails (opens : Bool) : Text → List Text
  | [] => []
  | c :: rest =>
    let later := commentTails (Text.isBlank c) rest
    if c == '#' && opens then rest :: later else later

/-- The name that an object gives under the first of the keys that holds a string. -/
def nameIn (object : Json) : Option Text :=
  keys.findSome? fun key => (object.member? key).bind Json.text?

/-- The name that a comment gives, if it is nothing but an object that names one. -/
def readComment (tail : Text) : Option Text :=
  match Text.trim tail with
  | '\x7b' :: rest => (Json.read ('\x7b' :: rest)).bind nameIn
  | _ => none

/-- The name that a line refers to. -/
def read (line : Text) : Option Text :=
  (commentTails true line).findSome? readComment

end SetterReport.FieldReference
