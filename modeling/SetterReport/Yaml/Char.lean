import SetterReport.Text.Basic

/-!
# Characters of a YAML text

Which characters may occur at all, which of them end a line, and which classes
the grammar distinguishes. Line endings of two characters, lone carriage
returns and next-line characters are made line feeds before anything else is
read; the two Unicode separators stay, for they survive folding.
-/

namespace SetterReport.Yaml

/-- The byte order mark. -/
def byteOrderMark : Char := '\ufeff'

/-- The characters that may occur in a text. -/
def isAllowed (c : Char) : Bool :=
  let n := c.toNat
  n == 0x09 || n == 0x0A || n == 0x0D || (0x20 ≤ n && n ≤ 0x7E) || n == 0x85 ||
  (0xA0 ≤ n && n ≤ 0xD7FF) || (0xE000 ≤ n && n ≤ 0xFFFD) || 0x10000 ≤ n

/-- The characters that end a line. -/
def isBreak (c : Char) : Bool :=
  c == '\n' || c == '\r' || c == '\u0085' || c == '\u2028' || c == '\u2029'

/-- Space and tab. -/
def isBlank (c : Char) : Bool :=
  c == ' ' || c == '\t'

/-- The letters, digits and signs that names are made of. -/
def isWordChar (c : Char) : Bool :=
  c.isAlphanum || c == '_' || c == '-'

/-- Whether a text is over, or goes on with a blank or a line end. -/
def blankNext : Text → Bool
  | [] => true
  | c :: _ => isBlank c || isBreak c

/-- Whether a line is over. -/
def lineOver : Text → Bool
  | [] => true
  | c :: _ => isBreak c

/-- Makes every line ending a single character. -/
def unifyBreaks : Text → Text
  | '\r' :: '\n' :: rest => '\n' :: unifyBreaks rest
  | c :: rest => (if c == '\r' || c == '\u0085' then '\n' else c) :: unifyBreaks rest
  | [] => []

/-- Whether a text starts with a document mark that is followed by a blank. -/
def isDocumentMark : Text → Bool
  | '-' :: '-' :: '-' :: rest => blankNext rest
  | '.' :: '.' :: '.' :: rest => blankNext rest
  | _ => false

end SetterReport.Yaml
