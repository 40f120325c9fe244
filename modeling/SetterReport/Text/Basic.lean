/-!
# Text as a list of characters

File names, metadata and tables are all handled as lists of characters, so
that every function on them is a recursion on the list and every fact about
them an induction.

Three conventions are fixed here for the whole library. A *blank* is any of
the twenty-five characters with the `White_Space` property, not only the ASCII
ones. A *line* ends at a line feed, and a carriage return directly before that
line feed belongs to the line ending; a carriage return anywhere else is part
of the line. Texts are ordered by code point, first difference first.
-/

namespace SetterReport

/-- A text is the list of its characters. -/
abbrev Text := List Char

namespace Text

/-! ## Blanks -/

/-- The characters with the `White_Space` property. -/
def isBlank (c : Char) : Bool :=
  let n := c.toNat
  (9 ≤ n && n ≤ 13) || n == 0x20 || n == 0x85 || n == 0xA0 || n == 0x1680 ||
  (0x2000 ≤ n && n ≤ 0x200A) || n == 0x2028 || n == 0x2029 || n == 0x202F ||
  n == 0x205F || n == 0x3000

/-- The text without its leading blanks. -/
def trimStart (t : Text) : Text :=
  t.dropWhile isBlank

/-- The text without its trailing blanks. -/
def trimEnd (t : Text) : Text :=
  (t.reverse.dropWhile isBlank).reverse

/-- The text without blanks at either end. -/
def trim (t : Text) : Text :=
  trimEnd (trimStart t)

/-! ## Lines -/

/-- Puts a character in front of the first line. -/
def onFirstLine (c : Char) : List Text → List Text
  | [] => [[c]]
  | line :: rest => (c :: line) :: rest

/--
The lines of a text. The last line need not be ended, and a line feed at the
very end opens no further line.
-/
def lines : Text → List Text
  | [] => []
  | '\n' :: rest => [] :: lines rest
  | '\r' :: '\n' :: rest => [] :: lines rest
  | c :: rest => onFirstLine c (lines rest)

/-! ## Parts -/

/-- The parts of a text between the occurrences of `c`; never empty. -/
def parts (c : Char) (t : Text) : List Text :=
  t.splitOn c

/-- The texts one after the other, with `sep` between neighbours. -/
def join (sep : Text) (ts : List Text) : Text :=
  sep.intercalate ts

/-- The text with `image` in place of every occurrence of `c`. -/
def replace (c : Char) (image : Text) (t : Text) : Text :=
  t.flatMap fun x => if x = c then image else [x]

/-- Whether `part` occurs somewhere in the text. -/
def includes (part : Text) : Text → Bool
  | [] => part.isEmpty
  | c :: rest => part.isPrefixOf (c :: rest) || includes part rest

/-! ## Numbers and sizes -/

/-- The decimal digits of a natural number, without leading zeros. -/
def ofNat (n : Nat) : Text :=
  Nat.toDigits 10 n

/-- The value of a hexadecimal digit. -/
def hexDigit? (c : Char) : Option Nat :=
  if c.isDigit then some (c.toNat - 48)
  else if 'a' ≤ c ∧ c ≤ 'f' then some (c.toNat - 87)
  else if 'A' ≤ c ∧ c ≤ 'F' then some (c.toNat - 55)
  else none

/-- The number of bytes of the text's UTF-8 form. -/
def utf8Length (t : Text) : Nat :=
  t.foldr (fun c n => c.utf8Size + n) 0

/-- `n` copies of a character. -/
def copies (n : Nat) (c : Char) : Text :=
  List.replicate n c

/-! ## Order -/

/-- Insertion into a list that ascends with respect to `le`. -/
def insertBy {α : Type} (le : α → α → Bool) (x : α) : List α → List α
  | [] => [x]
  | y :: rest => if le x y then x :: y :: rest else y :: insertBy le x rest

/-- The list in ascending order with respect to `le`; equals keep their order. -/
def sortBy {α : Type} (le : α → α → Bool) (xs : List α) : List α :=
  xs.foldr (insertBy le) []

end Text

end SetterReport
