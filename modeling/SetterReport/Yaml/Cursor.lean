import SetterReport.Yaml.Char

/-!
# Positions in a text

A cursor is what is left of a text together with where that is: how many
characters have been read, on which line, and in which column. Columns matter
because indentation does, and the count because a key must end soon after it
starts.
-/

namespace SetterReport.Yaml

/-- A position: characters read, lines read, characters read on this line. -/
structure Mark where
  index : Nat := 0
  line : Nat := 0
  column : Nat := 0
deriving DecidableEq

namespace Mark

/-- The position after one more character on the line. -/
def next (m : Mark) : Mark :=
  ⟨m.index + 1, m.line, m.column + 1⟩

/-- The position after the end of the line. -/
def nextLine (m : Mark) : Mark :=
  ⟨m.index + 1, m.line + 1, 0⟩

/-- The position after `n` more characters on the line. -/
def advance (m : Mark) (n : Nat) : Mark :=
  ⟨m.index + n, m.line, m.column + n⟩

end Mark

/-- What is left of a text, and where that is. -/
structure Cursor where
  mark : Mark
  rest : Text

namespace Cursor

/-- The cursor after `n` characters of the same line. -/
def skip (c : Cursor) (n : Nat) : Cursor :=
  ⟨c.mark.advance n, c.rest.drop n⟩

/-- The cursor after the end of the line, if it stands there. -/
def skipBreak (c : Cursor) : Cursor :=
  match c.rest with
  | x :: rest => if isBreak x then ⟨c.mark.nextLine, rest⟩ else c
  | [] => c

/-- The characters from here on that satisfy `p`, which must hold of no line end. -/
def span (p : Char → Bool) (c : Cursor) : Text × Cursor :=
  let taken := c.rest.takeWhile p
  (taken, c.skip taken.length)

/-- The cursor after all characters that satisfy `p`, which must hold of no line end. -/
def skipWhile (p : Char → Bool) (c : Cursor) : Cursor :=
  (c.span p).2

/-- The next character. -/
def peek (c : Cursor) : Option Char :=
  c.rest.head?

/-- The cursor at the end of the line it stands on, if only blanks and a comment are left of it. -/
def skipLineEnd (c : Cursor) : Option Cursor :=
  let c := c.skipWhile isBlank
  let c := if c.peek == some '#' then c.skipWhile (fun x => !isBreak x) else c
  if lineOver c.rest then some c.skipBreak else none

end Cursor

end SetterReport.Yaml
