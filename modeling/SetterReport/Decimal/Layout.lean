import SetterReport.Decimal.Shortest
import SetterReport.Text.Basic

/-!
# Writing decimals

A decimal `digits · 10^exponent` is written in one of two layouts: with its
point where it belongs, or with one digit before the point and an exponent. The
first always has a digit on both sides of the point.
-/

namespace SetterReport.Decimal.Scientific

/-- The digits of the decimal. -/
def digitText (s : Scientific) : Text :=
  Text.ofNat s.digits

/-- The number of digits before the point; negative for zeros after it. -/
def pointAfter (s : Scientific) : Int :=
  s.digitText.length + s.exponent

/-- The decimal with its point in place. -/
def positional (s : Scientific) : Text :=
  let ds := s.digitText
  let p := s.pointAfter
  if p ≤ 0 then '0' :: '.' :: Text.copies (-p).toNat '0' ++ ds
  else if 0 ≤ s.exponent then ds ++ Text.copies s.exponent.toNat '0' ++ ['.', '0']
  else ds.take p.toNat ++ '.' :: ds.drop p.toNat

/-- An integer in decimal digits. -/
def signed : Int → Text
  | .ofNat n => Text.ofNat n
  | .negSucc n => '-' :: Text.ofNat (n + 1)

/-- The decimal with one digit before the point and an exponent. -/
def exponential (s : Scientific) : Text :=
  let mantissa :=
    match s.digitText with
    | [] => []
    | [d] => [d]
    | d :: ds => d :: '.' :: ds
  mantissa ++ 'e' :: signed (s.pointAfter - 1)

end SetterReport.Decimal.Scientific
