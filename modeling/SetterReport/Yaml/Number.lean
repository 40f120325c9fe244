import SetterReport.Decimal.Layout

/-!
# Numbers of YAML

A number is an integer or a binary floating point number; the latter may also
be infinite or not a number. `text` writes a number as it stands in a document:
a floating point number shortest, positional unless it is very large or very
small, and always recognisable as one.
-/

namespace SetterReport.Yaml

open Decimal

/-- A number. -/
inductive Number
  | integer (i : Int)
  | finite (isNegative : Bool) (magnitude : Binary64)
  | infinite (isNegative : Bool)
  | notANumber
deriving DecidableEq

namespace Number

/-- A text with a minus sign in front where there is one. -/
def withSign (isNegative : Bool) (t : Text) : Text :=
  if isNegative then '-' :: t else t

/-- Whether the point of a decimal is close enough to its digits to be written in place. -/
def isPositional (s : Scientific) : Bool :=
  -5 < s.pointAfter && s.pointAfter ≤ 16

/-- The number as it stands in a document. -/
def text : Number → Text
  | integer i => Scientific.signed i
  | finite isNegative x =>
    let s := x.shortest
    withSign isNegative (if isPositional s then s.positional else s.exponential)
  | infinite isNegative => withSign isNegative ".inf".toList
  | notANumber => ".nan".toList

/-- The number as messages show it: never with an exponent. -/
def plainText : Number → Text
  | integer i => Scientific.signed i
  | finite isNegative x => withSign isNegative x.shortest.positional
  | infinite isNegative => withSign isNegative "inf".toList
  | notANumber => "NaN".toList

/--
Whether two numbers are the same. An integer is never the same as a floating
point number; the two zeros are, and so is every non-number with itself.
-/
def same : Number → Number → Bool
  | integer i, integer j => i == j
  | finite s x, finite t y => x == y && (s == t || x.m == 0)
  | infinite s, infinite t => s == t
  | notANumber, notANumber => true
  | _, _ => false

end Number

end SetterReport.Yaml
