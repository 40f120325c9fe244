import SetterReport.Yaml.Number

/-!
# Values

What a document says once scalars have been given their meaning. A mapping
keeps its entries in order; its keys are values of any kind. A tag that the
document made up itself stays with its value.

`same` is the equality that makes two keys of one mapping the same: the order
of a mapping's entries does not count, and tags are compared without one
exclamation mark in front.
-/

namespace SetterReport.Yaml

/-- The value of a document or of a part of it. -/
inductive Value
  | null
  | bool (b : Bool)
  | number (n : Number)
  | string (t : Text)
  | sequence (items : List Value)
  | mapping (entries : List (Value × Value))
  | tagged (tag : Text) (value : Value)

namespace Value

/-- A tag without an exclamation mark in front, unless it is nothing else. -/
def bareTag : Text → Text
  | ['!'] => ['!']
  | '!' :: rest => rest
  | t => t

mutual

/-- Whether two values are the same. -/
def same : Value → Value → Bool
  | null, null => true
  | bool a, bool b => a == b
  | number a, number b => a.same b
  | string a, string b => a == b
  | sequence xs, sequence ys => sameItems xs ys
  | mapping a, mapping b => a.length == b.length && containsAll a b
  | tagged s x, tagged t y => bareTag s == bareTag t && same x y
  | _, _ => false
termination_by structural a => a

/-- Whether two lists hold the same values in the same order. -/
def sameItems : List Value → List Value → Bool
  | [], [] => true
  | x :: xs, y :: ys => same x y && sameItems xs ys
  | _, _ => false
termination_by structural xs => xs

/-- Whether all of the entries occur in another mapping. -/
def containsAll : List (Value × Value) → List (Value × Value) → Bool
  | [], _ => true
  | (k, v) :: rest, b => b.any (fun e => same k e.1 && same v e.2) && containsAll rest b
termination_by structural entries => entries

end

/-- The value under the tags. -/
def untagged : Value → Value
  | tagged _ v => untagged v
  | v => v

end Value

end SetterReport.Yaml
