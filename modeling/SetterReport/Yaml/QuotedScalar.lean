import SetterReport.Yaml.PlainScalar

/-!
# Quoted scalars

A scalar in single quotes is literal, with a quote written twice. In double
quotes a backslash starts an escape: a letter or sign for one character, a code
of two, four or eight hexadecimal digits, or the line end itself, which is then
dropped together with the blanks that open the next line.
-/

namespace SetterReport.Yaml

/-- The two kinds of quotes. -/
inductive Quotes
  | single
  | double
deriving DecidableEq

namespace Quotes

/-- The quote character. -/
def char : Quotes → Char
  | single => '\x27'
  | double => '\x22'

end Quotes

/-- The character that an escape of one character stands for. -/
def escapedChar? : Char → Option Char
  | '0' => some '\x00'
  | 'a' => some '\x07'
  | 'b' => some '\x08'
  | 't' => some '\t'
  | '\t' => some '\t'
  | 'n' => some '\n'
  | 'v' => some '\x0b'
  | 'f' => some '\x0c'
  | 'r' => some '\r'
  | 'e' => some '\x1b'
  | ' ' => some ' '
  | '\x22' => some '\x22'
  | '/' => some '/'
  | '\\' => some '\\'
  | 'N' => some '\u0085'
  | '_' => some '\u00a0'
  | 'L' => some '\u2028'
  | 'P' => some '\u2029'
  | _ => none

/-- The number of digits after an escape that gives a code. -/
def codeLength? : Char → Option Nat
  | 'x' => some 2
  | 'u' => some 4
  | 'U' => some 8
  | _ => none

/-- The character of a code; surrogates and numbers beyond the range have none. -/
def charOfCode? (n : Nat) : Option Char :=
  if n.isValidChar then some (Char.ofNat n) else none

/-- Where in a quoted scalar the reader is. -/
inductive QuoteState
  /-- Among ordinary characters. -/
  | ordinary
  /-- After a backslash. -/
  | escape
  /-- In a code, with so many digits to come and the value of those read. -/
  | code (left value : Nat)
  /-- After the first of two single quotes. -/
  | doubled

/--
Reads on in a quoted scalar. `read` is what has been read, the last character
first, and `gap` the blanks and line ends after it.
-/
def scanQuotedFrom (quotes : Quotes) :
    QuoteState → (read : Text) → Gap → Mark → Text → Option ScannedScalar
  | _, _, _, _, [] => none
  | .escape, read, _, m, c :: rest =>
    if isBreak c then scanQuotedFrom quotes .ordinary read .escaped m.nextLine rest
    else
      match codeLength? c with
      | some n => scanQuotedFrom quotes (.code n 0) read {} m.next rest
      | none =>
        (escapedChar? c).bind fun x =>
          scanQuotedFrom quotes .ordinary (x :: read) {} m.next rest
  | .code left value, read, _, m, c :: rest =>
    (Text.hexDigit? c).bind fun d =>
      let value := value * 16 + d
      if left ≤ 1 then
        (charOfCode? value).bind fun x =>
          scanQuotedFrom quotes .ordinary (x :: read) {} m.next rest
      else scanQuotedFrom quotes (.code (left - 1) value) read {} m.next rest
  | .doubled, read, _, m, c :: rest =>
    scanQuotedFrom quotes .ordinary (c :: read) {} m.next rest
  | .ordinary, read, gap, m, c :: rest =>
    if m.column == 0 && isDocumentMark (c :: rest) then none
    else if isBreak c then scanQuotedFrom quotes .ordinary read (gap.addBreak c) m.nextLine rest
    else if isBlank c then scanQuotedFrom quotes .ordinary read (gap.addBlank c) m.next rest
    else
      let read := gap.fold.reverse ++ read
      if c == quotes.char then
        if quotes = .single && rest.head? == some c then
          scanQuotedFrom quotes .doubled read {} m.next rest
        else some ⟨read.reverse, false, ⟨m.next, rest⟩⟩
      else if quotes = .double && c == '\\' then
        scanQuotedFrom quotes .escape read {} m.next rest
      else scanQuotedFrom quotes .ordinary (c :: read) {} m.next rest

/-- Reads a quoted scalar after its opening quote. -/
def scanQuoted (quotes : Quotes) (c : Cursor) : Option ScannedScalar :=
  scanQuotedFrom quotes .ordinary [] {} c.mark c.rest

end SetterReport.Yaml
