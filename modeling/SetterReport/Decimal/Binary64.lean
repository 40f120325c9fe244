/-!
# Binary floating point numbers of 64 bits

A finite number of the format is `m · 2^q` with `m < 2^53` and
`-1074 ≤ q ≤ 971`; it is *normal* when `2^52 ≤ m`, and a smaller `m` occurs at
the least exponent only. Everything is computed in exact integer arithmetic: a
decimal numeral is a quotient of two naturals, `nearest?` finds the exponent at
which that quotient has fifty-three bits, and `roundHalfEven` does the one
rounding that there is.
-/

namespace SetterReport.Decimal

/-- The natural number nearest to `num / den`; halfway, the even neighbour. -/
def roundHalfEven (num den : Nat) : Nat :=
  let q := num / den
  let r := num % den
  if 2 * r < den then q
  else if den < 2 * r then q + 1
  else if q % 2 = 0 then q
  else q + 1

/-- `num / den < 2^e`, for a positive `den` and any integer `e`. -/
def belowPower (num den : Nat) (e : Int) : Bool :=
  decide (num * Nat.pow 2 (-e).toNat < den * Nat.pow 2 e.toNat)

/-- A magnitude `m · 2^q` of the format. -/
structure Binary64 where
  m : Nat
  q : Int
deriving DecidableEq

namespace Binary64

/-- The least exponent. -/
def leastExponent : Int := -1074

/-- The greatest exponent. -/
def greatestExponent : Int := 971

/-- The exponent at which `num / den` has fifty-three bits before the point, or the least one. -/
def exponentFor (num den : Nat) : Int :=
  let guess : Int := (Nat.log2 num : Int) - (Nat.log2 den : Int)
  let floorLog := if belowPower num den guess then guess - 1 else guess
  max leastExponent (floorLog - 52)

/-- The magnitude nearest to `num / den`; none when that is beyond the greatest one. -/
def nearest? (num den : Nat) : Option Binary64 :=
  if num = 0 then some ⟨0, leastExponent⟩
  else
    let q := exponentFor num den
    let m := roundHalfEven (num * Nat.pow 2 (-q).toNat) (den * Nat.pow 2 q.toNat)
    let rounded : Binary64 := if m = Nat.pow 2 53 then ⟨Nat.pow 2 52, q + 1⟩ else ⟨m, q⟩
    if greatestExponent < rounded.q then none else some rounded

/-- A decimal exponent above which every number with a digit is too large. -/
def farAbove : Int := 400

/-- A decimal exponent below which every number is nearest to zero. -/
def farBelow : Int := -400

/--
The magnitude nearest to `digits · 10^exponent`; none when it is too large.
`width` bounds the number of decimal digits, so that hopeless exponents are
decided without large powers.
-/
def ofDecimal? (digits : Nat) (width : Nat) (exponent : Int) : Option Binary64 :=
  if digits = 0 then some ⟨0, leastExponent⟩
  else if farAbove < exponent then none
  else if exponent + width < farBelow then some ⟨0, leastExponent⟩
  else nearest? (digits * Nat.pow 10 exponent.toNat) (Nat.pow 10 (-exponent).toNat)

/-- A natural number rounded to fifty-three bits, as a natural number. -/
def roundNat (n : Nat) : Nat :=
  match nearest? n 1 with
  | some ⟨m, q⟩ => m * Nat.pow 2 q.toNat / Nat.pow 2 (-q).toNat
  | none => n

end Binary64

end SetterReport.Decimal
