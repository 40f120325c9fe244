import SetterReport.Yaml.Value

/-!
# What a plain scalar means

A scalar without quotes may be null, a truth value, an integer or a floating
point number; otherwise it is a string. Integers are decimal, or hexadecimal,
octal or binary with a mark in front; a decimal numeral with superfluous zeros
in front is a string, as version numbers and postal codes want it. An integer
that needs more than 64 bits is refused up to 128 bits, and read as a floating
point number beyond.
-/

namespace SetterReport.Yaml.Scalar

open Decimal

/-! ## Null and truth values -/

/-- The spellings of null. -/
def nulls : List Text :=
  [[], "~".toList, "null".toList, "Null".toList, "NULL".toList]

/-- The truth value that a text spells. -/
def truth? (t : Text) : Option Bool :=
  if ["true".toList, "True".toList, "TRUE".toList].contains t then some true
  else if ["false".toList, "False".toList, "FALSE".toList].contains t then some false
  else none

/-! ## Integers -/

/-- The value of a digit in a base of at most sixteen. -/
def digit? (base : Nat) (c : Char) : Option Nat :=
  (Text.hexDigit? c).filter (· < base)

/-- The natural number that digits in a base spell. -/
def natural? (base : Nat) : Text → Option Nat
  | [] => none
  | t => t.foldlM (fun n c => (digit? base c).map (base * n + ·)) 0

/-- The text without a plus or minus sign in front. -/
def withoutSign : Text → Text
  | '+' :: rest => rest
  | '-' :: rest => rest
  | t => t

/-- Whether a text is a decimal numeral with superfluous zeros in front. -/
def isPadded (t : Text) : Bool :=
  match withoutSign t with
  | '0' :: d :: rest => (d :: rest).all Char.isDigit
  | _ => false

/-- The natural number that a numeral with or without a mark of its base spells. -/
def marked? : Text → Option Nat
  | '0' :: 'x' :: digits => natural? 16 digits
  | '0' :: 'o' :: digits => natural? 8 digits
  | '0' :: 'b' :: digits => natural? 2 digits
  | digits => if isPadded digits then none else natural? 10 digits

/-- The integer that a text spells. -/
def integer? : Text → Option Int
  | '-' :: rest => (marked? rest).map fun n => -(n : Int)
  | '+' :: rest => (marked? rest).map fun n => (n : Int)
  | t => (marked? t).map fun n => (n : Int)

/-- Whether an integer can be kept. -/
def fits (i : Int) : Bool :=
  -Int.pow 2 63 ≤ i && i < Int.pow 2 64

/-- Whether an integer is within twice the width. -/
def fitsTwice (i : Int) : Bool :=
  -Int.pow 2 127 ≤ i && i < Int.pow 2 128

/-! ## Floating point numbers -/

/-- The spellings of infinity, its sign apart. -/
def infinities : List Text := [".inf".toList, ".Inf".toList, ".INF".toList]

/-- The spellings of what is not a number. -/
def notNumbers : List Text := [".nan".toList, ".NaN".toList, ".NAN".toList]

/-- The value of decimal digits. -/
def value (ds : Text) : Nat :=
  ds.foldl (fun n c => 10 * n + (c.toNat - 48)) 0

/-- The exponent that a text spells after its `e`. -/
def exponent? (t : Text) : Option Int :=
  match t with
  | '-' :: ds => if ds.isEmpty || !ds.all Char.isDigit then none else some (-(value ds : Int))
  | '+' :: ds => if ds.isEmpty || !ds.all Char.isDigit then none else some (value ds)
  | ds => if ds.isEmpty || !ds.all Char.isDigit then none else some (value ds)

/-- The magnitude that a decimal numeral spells. -/
def magnitude? (t : Text) : Option Binary64 :=
  let whole := t.takeWhile Char.isDigit
  let rest := t.dropWhile Char.isDigit
  let (fraction, rest) :=
    match rest with
    | '.' :: r => (r.takeWhile Char.isDigit, r.dropWhile Char.isDigit)
    | r => ([], r)
  let ds := whole ++ fraction
  let exponent :=
    match rest with
    | [] => some 0
    | c :: r => if c == 'e' || c == 'E' then exponent? r else none
  if ds.isEmpty then none
  else exponent.bind fun e => Binary64.ofDecimal? (value ds) ds.length (e - fraction.length)

/-- The floating point number that a text spells. -/
def float? (t : Text) : Option Number :=
  match t with
  | '-' :: rest =>
    if infinities.contains rest then some (.infinite true)
    else (magnitude? rest).map (.finite true)
  | '+' :: rest =>
    if infinities.contains rest then some (.infinite false)
    else (magnitude? rest).map (.finite false)
  | _ =>
    if infinities.contains t then some (.infinite false)
    else if notNumbers.contains t then some .notANumber
    else (magnitude? t).map (.finite false)

/-! ## Resolution -/

/-- The value of a plain scalar; none for an integer that is refused. -/
def resolve (t : Text) : Option Value :=
  if nulls.contains t then some .null
  else
    match truth? t with
    | some b => some (.bool b)
    | none =>
      match (integer? t).filter fitsTwice with
      | some i => if fits i then some (.number (.integer i)) else none
      | none =>
        if isPadded t then some (.string t)
        else some (((float? t).map Value.number).getD (.string t))

/-- The types of the standard that a tag can ask for. -/
inductive Kind
  | null
  | bool
  | int
  | float
deriving DecidableEq

/-- The value of a scalar that is asked to be of a kind; none if it is not. -/
def resolveAs : Kind → Text → Option Value
  | .null, t => if nulls.contains t && !t.isEmpty then some .null else none
  | .bool, t => (truth? t).map .bool
  | .int, t =>
    ((integer? t).filter fits).map fun i => .number (.integer i)
  | .float, t => (float? t).map .number

end SetterReport.Yaml.Scalar
