import SetterReport.Yaml.Folding

/-!
# Plain scalars

A plain scalar is text without quotes. It ends where a colon is followed by a
blank, where a comment or a document mark follows a gap, and where a line is
not indented enough; inside brackets it also ends at brackets and commas, and
its indentation does not matter.
-/

namespace SetterReport.Yaml

/-- A scalar that has been read, and where the text goes on. -/
structure ScannedScalar where
  text : Text
  /-- Whether a line end stands between the scalar and what follows. -/
  endsLine : Bool
  next : Cursor

/-- The characters that mean something inside brackets. -/
def isFlowIndicator (c : Char) : Bool :=
  c == ',' || c == '[' || c == ']' || c == '\x7b' || c == '\x7d'

/-- Whether a colon inside brackets stands where it can be neither text nor mark. -/
def isStrayColon (inFlow : Bool) (c : Char) (rest : Text) : Bool :=
  inFlow && c == ':' && rest.head?.any fun x => x == '?' || isFlowIndicator x

/-- Whether a plain scalar ends before a character. -/
def endsPlain (inFlow : Bool) (c : Char) (rest : Text) : Bool :=
  (c == ':' && blankNext rest) || (inFlow && isFlowIndicator c)

/--
Reads on in a plain scalar whose lines must be indented by `indent`. `read` is
what has been read, the last character first, and `gap` what came after it.
-/
def scanPlainFrom (inFlow : Bool) (indent : Nat) :
    (read : Text) → Gap → Mark → Text → Option ScannedScalar
  | read, gap, m, [] => some ⟨read.reverse, gap.isBroken, ⟨m, []⟩⟩
  | read, gap, m, c :: rest =>
    if isBreak c then scanPlainFrom inFlow indent read (gap.addBreak c) m.nextLine rest
    else if isBlank c then
      if gap.isBroken && m.column < indent && c == '\t' then none
      else scanPlainFrom inFlow indent read (gap.addBlank c) m.next rest
    else if !gap.isNone &&
        ((!inFlow && m.column < indent) || (m.column == 0 && isDocumentMark (c :: rest)) ||
          c == '#') then
      some ⟨read.reverse, gap.isBroken, ⟨m, c :: rest⟩⟩
    else if isStrayColon inFlow c rest then none
    else if endsPlain inFlow c rest then
      some ⟨read.reverse, gap.isBroken, ⟨m, c :: rest⟩⟩
    else scanPlainFrom inFlow indent (c :: (gap.fold.reverse ++ read)) {} m.next rest

/-- Reads a plain scalar. -/
def scanPlain (inFlow : Bool) (indent : Nat) (c : Cursor) : Option ScannedScalar :=
  scanPlainFrom inFlow indent [] {} c.mark c.rest

end SetterReport.Yaml
