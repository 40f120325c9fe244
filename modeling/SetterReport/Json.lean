import SetterReport.Text.Basic
import SetterReport.Decimal.Binary64

/-!
# Reading JSON

`Json.read` accepts exactly one value and nothing after it but blanks. It is a
recursive descent whose recursion is on the nesting that is still allowed: at
most `deepest` brackets may be open at once. Lists of members are read by one
function, `members`, for arrays and objects alike.

Strings are read in two steps. The first turns the characters between the
quotes into units, where an escape `\uXXXX` is one sixteen-bit code; the second
puts the codes of surrogate pairs together. A code that is half a pair and has
no other half makes the string unreadable, and so does an unescaped control
character. A number is kept as it is spelled, but one that lies beyond the
range of binary floating point is refused.
-/

namespace SetterReport

/-- A JSON value; the members of an object are kept in order, repeated ones included. -/
inductive Json
  | null
  | bool (b : Bool)
  | number (spelling : Text)
  | string (t : Text)
  | array (items : List Json)
  | object (members : List (Text × Json))

namespace Json

/-! ## Blanks -/

/-- The four characters that may stand between tokens. -/
def isBlank (c : Char) : Bool :=
  c == ' ' || c == '\t' || c == '\n' || c == '\r'

/-- The text from its first character that is not blank. -/
def skipBlanks (t : Text) : Text :=
  t.dropWhile isBlank

/-! ## Strings -/

/-- The value of four hexadecimal digits. -/
def hexCode? (a b c d : Char) : Option Nat := do
  let a ← Text.hexDigit? a
  let b ← Text.hexDigit? b
  let c ← Text.hexDigit? c
  let d ← Text.hexDigit? d
  some (((a * 16 + b) * 16 + c) * 16 + d)

/-- A part of a string: a character, or a sixteen-bit code written as an escape. -/
inductive Piece
  | char (c : Char)
  | code (n : Nat)

/-- The character that a one-letter escape stands for. -/
def escape? : Char → Option Char
  | '\x22' => some '\x22'
  | '\\' => some '\\'
  | '/' => some '/'
  | 'b' => some '\x08'
  | 'f' => some '\x0c'
  | 'n' => some '\n'
  | 'r' => some '\r'
  | 't' => some '\t'
  | _ => none

/-- The pieces up to the closing quote, and what follows it. -/
def pieces : Text → Option (List Piece × Text)
  | [] => none
  | '\x22' :: rest => some ([], rest)
  | '\\' :: 'u' :: a :: b :: c :: d :: rest => do
    let n ← hexCode? a b c d
    let (ps, after) ← pieces rest
    some (.code n :: ps, after)
  | '\\' :: e :: rest => do
    let x ← escape? e
    let (ps, after) ← pieces rest
    some (.char x :: ps, after)
  | c :: rest =>
    if c.toNat < 0x20 then none
    else do
      let (ps, after) ← pieces rest
      some (.char c :: ps, after)

/-- The first half of a surrogate pair. -/
def isHighHalf (n : Nat) : Bool := 0xD800 ≤ n && n ≤ 0xDBFF

/-- The second half of a surrogate pair. -/
def isLowHalf (n : Nat) : Bool := 0xDC00 ≤ n && n ≤ 0xDFFF

/-- The character of a surrogate pair. -/
def pair (high low : Nat) : Char :=
  Char.ofNat (0x10000 + (high - 0xD800) * 0x400 + (low - 0xDC00))

/-- The text that pieces spell. -/
def spell : List Piece → Option Text
  | [] => some []
  | .char c :: rest => (spell rest).map (c :: ·)
  | .code high :: .code low :: rest =>
    if isHighHalf high then
      if isLowHalf low then (spell rest).map (pair high low :: ·) else none
    else if isLowHalf high then none
    else (spell (.code low :: rest)).map (Char.ofNat high :: ·)
  | .code n :: rest =>
    if isHighHalf n || isLowHalf n then none else (spell rest).map (Char.ofNat n :: ·)

/-- Reads a string after its opening quote. -/
def readString (t : Text) : Option (Text × Text) := do
  let (ps, after) ← pieces t
  let s ← spell ps
  some (s, after)

/-! ## Numbers -/

/-- The digits at the start of a text, and what follows them. -/
def digits (t : Text) : Text × Text :=
  (t.takeWhile Char.isDigit, t.dropWhile Char.isDigit)

/-- The parts of a number's spelling, its sign apart. -/
structure Numeral where
  whole : Text
  fraction : Text
  /-- Whether the exponent has a minus sign. -/
  isShrunk : Bool
  exponent : Text

/-- The whole part: one zero, or digits that start with another one. -/
def readWhole (t : Text) : Option (Text × Text) :=
  match digits t with
  | ([], _) => none
  | (['0'], after) => some (['0'], after)
  | ('0' :: _, _) => none
  | (ds, after) => some (ds, after)

/-- The part after a point, if there is a point. -/
def readFraction : Text → Option (Text × Text)
  | '.' :: rest =>
    match digits rest with
    | ([], _) => none
    | (ds, after) => some (ds, after)
  | t => some ([], t)

/-- The part after an `e`, if there is one: whether it is negative, and its digits. -/
def readExponent (t : Text) : Option (Bool × Text × Text) :=
  let scale (isShrunk : Bool) (rest : Text) : Option (Bool × Text × Text) :=
    match digits rest with
    | ([], _) => none
    | (ds, after) => some (isShrunk, ds, after)
  match t with
  | c :: rest =>
    if c == 'e' || c == 'E' then
      match rest with
      | '+' :: r => scale false r
      | '-' :: r => scale true r
      | r => scale false r
    else some (false, [], t)
  | [] => some (false, [], [])

/-- The value of decimal digits. -/
def value (ds : Text) : Nat :=
  ds.foldl (fun n c => 10 * n + (c.toNat - 48)) 0

/-- The greatest significand that is kept exactly. -/
def greatestSignificand : Nat := Nat.pow 2 64 - 1

/--
Appends digits to a significand for as long as it stays exact; the second
component counts the digits that no longer fit.
-/
def significand : Nat → Text → Nat × Nat
  | n, [] => (n, 0)
  | n, c :: rest =>
    let next := 10 * n + (c.toNat - 48)
    if greatestSignificand < next then (n, (c :: rest).length) else significand next rest

/-- The greatest exponent that is read as one. -/
def greatestScale : Nat := Nat.pow 2 31 - 1

/-- Whether a number lies within the range of binary floating point. -/
def Numeral.isInRange (n : Numeral) : Bool :=
  let (s, dropped) := significand 0 n.whole
  let (s, unread) := significand s n.fraction
  let start : Int := (dropped : Int) - ((n.fraction.length - unread : Nat) : Int)
  let scale := value n.exponent
  if s = 0 then true
  else if greatestScale < scale then n.isShrunk
  else
    let e := if n.isShrunk then start - scale else start + scale
    if e ≤ 0 then true
    else if 308 < e then false
    else
      decide (Decimal.Binary64.roundNat s * Decimal.Binary64.roundNat (Nat.pow 10 e.toNat) <
        Nat.pow 2 1024 - Nat.pow 2 970)

/-- Reads a number without its sign. -/
def readNumeral (t : Text) : Option (Numeral × Text) := do
  let (whole, t) ← readWhole t
  let (fraction, t) ← readFraction t
  let (isShrunk, exponent, t) ← readExponent t
  let n : Numeral := ⟨whole, fraction, isShrunk, exponent⟩
  if n.isInRange then some (n, t) else none

/-- Reads a number. -/
def readNumber (t : Text) : Option (Json × Text) :=
  let unsigned := match t with
    | '-' :: rest => rest
    | _ => t
  match readNumeral unsigned with
  | some (_, after) => some (.number (t.take (t.length - after.length)), after)
  | none => none

/-! ## Values -/

/-- Reads the given word. -/
def readWord (word : Text) (result : Json) (t : Text) : Option (Json × Text) :=
  (word.isPrefixOf? t).map (result, ·)

/--
Reads the members of a list after its opening bracket: none and the closing
bracket, or some with commas between them and the closing bracket. `fuel`
bounds their number.
-/
def members {α : Type} (close : Char) (item : Text → Option (α × Text)) :
    (fuel : Nat) → (isFirst : Bool) → Text → Option (List α × Text)
  | 0, _, _ => none
  | fuel + 1, isFirst, t =>
    match skipBlanks t with
    | [] => none
    | c :: rest =>
      if c == close then some ([], rest)
      else
        let here := if isFirst then some (c :: rest) else if c == ',' then some rest else none
        here.bind fun t =>
          (item (skipBlanks t)).bind fun (x, after) =>
            (members close item fuel false after).map fun (xs, after) => (x :: xs, after)

/-- Reads a member of an object: its name, a colon and its value. -/
def member (item : Text → Option (Json × Text)) : Text → Option ((Text × Json) × Text)
  | '\x22' :: t => do
    let (name, after) ← readString t
    match skipBlanks after with
    | ':' :: rest =>
      let (v, after) ← item (skipBlanks rest)
      some ((name, v), after)
    | _ => none
  | _ => none

/-- The number of brackets that may be open at once. -/
def deepest : Nat := 127

/-- Reads a value at the start of a text; `depth` more brackets may be opened. -/
def readValue : (depth : Nat) → Text → Option (Json × Text)
  | depth, t =>
    match t with
    | '\x22' :: rest => (readString rest).map fun (s, after) => (.string s, after)
    | '[' :: rest =>
      match depth with
      | 0 => none
      | depth + 1 =>
        (members ']' (readValue depth) (rest.length + 1) true rest).map fun (xs, after) =>
          (.array xs, after)
    | '\x7b' :: rest =>
      match depth with
      | 0 => none
      | depth + 1 =>
        (members '\x7d' (member (readValue depth)) (rest.length + 1) true rest).map
          fun (ms, after) => (.object ms, after)
    | 'n' :: _ => readWord "null".toList .null t
    | 't' :: _ => readWord "true".toList (.bool true) t
    | 'f' :: _ => readWord "false".toList (.bool false) t
    | _ => readNumber t

/-- Reads a text that holds one value and nothing else. -/
def read (t : Text) : Option Json := do
  let (v, after) ← readValue deepest (skipBlanks t)
  if (skipBlanks after).isEmpty then some v else none

/-! ## Looking up -/

/-- The value of an object's member; of repeated members the last one counts. -/
def member? (name : Text) : Json → Option Json
  | object ms => (ms.reverse.find? (·.1 == name)).map (·.2)
  | _ => none

/-- The text of a string. -/
def text? : Json → Option Text
  | string t => some t
  | _ => none

/-- Whether the value is an object. -/
def isObject : Json → Bool
  | object _ => true
  | _ => false

end Json

end SetterReport
