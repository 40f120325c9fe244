import SetterReport.Yaml.Char
import SetterReport.Yaml.Scalar

/-!
# How a scalar is written

A string may be written plain if it would be read back as that string. One that
would be taken for something else gets single quotes; one with a line feed is
written as a block; and where quotes or blocks cannot hold a character it gets
double quotes and escapes. `Shape` collects what has to be known of a text to
decide.
-/

namespace SetterReport.Yaml

/-- The ways to write a scalar. -/
inductive ScalarStyle
  | plain
  | singleQuoted
  | doubleQuoted
  | literal
deriving DecidableEq

/-- The characters that can be written outside double quotes. -/
def isWritable (c : Char) : Bool :=
  let n := c.toNat
  n == 0x0A || (0x20 ≤ n && n ≤ 0x7E) || (0xA0 ≤ n && n ≤ 0xD7FF) ||
  (0xE000 ≤ n && n ≤ 0xFFFD && n != 0xFEFF)

/-- Whether a text over two characters has neighbours of the given kinds. -/
def hasNeighbours (p q : Char → Bool) : Text → Bool
  | a :: b :: rest => (p a && q b) || hasNeighbours p q (b :: rest)
  | _ => false

/-- Whether a plain scalar with this start, outside brackets, would be misread. -/
def startMisread : Text → Bool
  | [] => false
  | '-' :: '-' :: '-' :: _ => true
  | '.' :: '.' :: '.' :: _ => true
  | c :: rest =>
    "#,[]\x7b\x7d&*!|>'\"%@\x60".toList.contains c ||
      ((c == '?' || c == ':' || c == '-') && blankNext rest)

/-- Whether a plain scalar, after its first character, would be misread outside brackets. -/
def innerMisread : Text → Bool
  | a :: b :: rest =>
    (b == ':' && blankNext rest) || (b == '#' && (isBlank a || isBreak a)) ||
      innerMisread (b :: rest)
  | _ => false

/-- What has to be known of a text to write it. -/
structure Shape where
  hasBreaks : Bool
  plainAllowed : Bool
  singleQuotedAllowed : Bool
  literalAllowed : Bool

/-- The shape of a text. -/
def Shape.of (t : Text) : Shape :=
  let isSpace (c : Char) : Bool := c == ' '
  let first := t.head?
  let last := t.getLast?
  let hasBreaks := t.any isBreak
  let isSpecial := t.any (!isWritable ·)
  let breakSpace := hasNeighbours isBreak isSpace t
  let spaceBreak := hasNeighbours isSpace isBreak t
  let isOpen := first.any (fun c => isSpace c || isBreak c) || last.any (fun c => isSpace c || isBreak c)
  { hasBreaks := hasBreaks
    plainAllowed :=
      !isOpen && !breakSpace && !spaceBreak && !isSpecial && !hasBreaks &&
        !startMisread t && !innerMisread t
    singleQuotedAllowed := !breakSpace && !spaceBreak && !isSpecial
    literalAllowed := !t.isEmpty && !last.any isSpace && !spaceBreak && !isSpecial }

/-- Whether a plain text would be read as something else than a string. -/
def isAmbiguous (t : Text) : Bool :=
  match Scalar.resolve t with
  | some (.string _) => Scalar.isPadded t
  | _ => true

/-- The style in which a string should be written. -/
def wantedStyle (t : Text) : ScalarStyle :=
  if t.contains '\n' then .literal
  else if isAmbiguous t then .singleQuoted
  else .plain

/-- The style in which a text is written; `isKey` says that it is a key on one line. -/
def styleFor (wanted : ScalarStyle) (isKey : Bool) (t : Text) : ScalarStyle :=
  let shape := Shape.of t
  if isKey && shape.hasBreaks then .doubleQuoted
  else
    match wanted with
    | .plain =>
      if shape.plainAllowed && !(t.isEmpty && isKey) then .plain
      else if shape.singleQuotedAllowed then .singleQuoted
      else .doubleQuoted
    | .singleQuoted => if shape.singleQuotedAllowed then .singleQuoted else .doubleQuoted
    | .doubleQuoted => .doubleQuoted
    | .literal => if shape.literalAllowed && !isKey then .literal else .doubleQuoted

end SetterReport.Yaml
