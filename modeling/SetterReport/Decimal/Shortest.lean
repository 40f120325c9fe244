import SetterReport.Decimal.Binary64

/-!
# The shortest decimal that reads back

Among the decimals that round to a given magnitude there are some with fewest
digits; of these the nearest one is taken, and of two equally near ones the
even one. For a fixed power of ten only the two multiples next to the magnitude
can qualify, so it is enough to go through the powers from the top down and to
take the first that has a multiple in the rounding interval.
-/

namespace SetterReport.Decimal

/-- A decimal `digits · 10^exponent`. -/
structure Scientific where
  digits : Nat
  exponent : Int
deriving DecidableEq

namespace Binary64

/--
The rounding interval of `m · 2^q` in units of `2^(q-2)`: its two ends, with
the magnitude itself at `4 · m`. Below a power of two the gap is half as wide.
-/
def interval (x : Binary64) : Nat × Nat :=
  (if x.m = Nat.pow 2 52 ∧ leastExponent < x.q then 4 * x.m - 1 else 4 * x.m - 2, 4 * x.m + 2)

/-- The distance of two natural numbers. -/
def distance (a b : Nat) : Nat :=
  (a - b) + (b - a)

/-- The better one of two neighbouring multiples, seen from `target / den`. -/
def nearerMultiple (low : Nat) (target den : Nat) : Nat :=
  let dLow := distance target (low * den)
  let dHigh := distance target ((low + 1) * den)
  if dLow < dHigh then low
  else if dHigh < dLow then low + 1
  else if low % 2 = 0 then low
  else low + 1

/-- The best multiple of `10^k` in the rounding interval, if one is there. -/
def multipleAt? (x : Binary64) (k : Int) : Option Nat :=
  let u := x.q - 2
  let num := Nat.pow 2 u.toNat * Nat.pow 10 (-k).toNat
  let den := Nat.pow 2 (-u).toNat * Nat.pow 10 k.toNat
  let (lo, hi) := x.interval
  let target := 4 * x.m * num
  let low := target / den
  let inside (d : Nat) : Bool :=
    d != 0 &&
      if x.m % 2 = 0 then decide (lo * num ≤ d * den) && decide (d * den ≤ hi * num)
      else decide (lo * num < d * den) && decide (d * den < hi * num)
  match inside low, inside (low + 1) with
  | true, true => some (nearerMultiple low target den)
  | true, false => some low
  | false, true => some (low + 1)
  | false, false => none

/-- Tries the powers of ten from `k` downward. -/
def firstMultiple (x : Binary64) : (tries : Nat) → Int → Scientific
  | 0, k => ⟨x.m, k⟩
  | tries + 1, k =>
    match multipleAt? x k with
    | some d => ⟨d, k⟩
    | none => firstMultiple x tries (k - 1)

/-- The shortest decimal that rounds to a positive magnitude. -/
def shortest (x : Binary64) : Scientific :=
  if x.m = 0 then ⟨0, 0⟩
  else firstMultiple x 25 (((Nat.log2 x.m : Int) + x.q + 1) * 30103 / 100000 + 2)

end Binary64

end SetterReport.Decimal
