import SetterReport.Text.Basic
import SetterReport.Unicode.Combining
import SetterReport.Unicode.Printable

/-!
# Quoted texts

A text in double quotes, for messages. A character that a reader could not see
or would misread is written as an escape: the common ones by a letter, all
others by their code point.
-/

namespace SetterReport.Text

/-- The lower-case hexadecimal digits of a number. -/
def hex (n : Nat) : Text :=
  Nat.toDigits 16 n

/-- Whether a character would not be seen as itself. -/
def isHidden (c : Char) : Bool :=
  Unicode.graphemeExtend.holds c.toNat || Unicode.unprintable.holds c.toNat

/-- A character between quotes. -/
def quoteChar (c : Char) : Text :=
  match c with
  | '\x00' => ['\\', '0']
  | '\t' => ['\\', 't']
  | '\n' => ['\\', 'n']
  | '\r' => ['\\', 'r']
  | '\x22' => ['\\', '\x22']
  | '\\' => ['\\', '\\']
  | c => if isHidden c then "\\u\x7b".toList ++ hex c.toNat ++ ['\x7d'] else [c]

/-- A text in quotes. -/
def quote (t : Text) : Text :=
  '\x22' :: t.flatMap quoteChar ++ ['\x22']

end SetterReport.Text
