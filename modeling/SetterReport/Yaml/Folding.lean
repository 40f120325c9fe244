import SetterReport.Yaml.Cursor

/-!
# Folding of lines

Inside plain and quoted scalars a run of blanks and line ends is a *gap*. A gap
without a line end stands for its blanks. A gap with line ends stands for its
line ends: a single line feed becomes a space, of several the first is dropped,
and the blanks around line ends do not count. A line end that was escaped leads
a gap without standing for anything.
-/

namespace SetterReport.Yaml

/-- A run of blanks and line ends inside a scalar. -/
structure Gap where
  /-- The blanks, as long as there was no line end. -/
  blanks : Text := []
  /-- Whether there was a line end, escaped or not. -/
  isBroken : Bool := false
  /-- The first line end that was not escaped away. -/
  first : Option Char := none
  /-- The line ends after the first. -/
  more : Text := []

namespace Gap

/-- The gap that an escaped line end opens. -/
def escaped : Gap := ⟨[], true, none, []⟩

/-- Whether the gap is not there at all. -/
def isNone (g : Gap) : Bool :=
  g.blanks.isEmpty && !g.isBroken

/-- The gap with one more blank. -/
def addBlank (g : Gap) (c : Char) : Gap :=
  if g.isBroken then g else ⟨g.blanks ++ [c], false, none, []⟩

/-- The gap with one more line end. -/
def addBreak (g : Gap) (c : Char) : Gap :=
  if g.isBroken then ⟨[], true, g.first, g.more ++ [c]⟩ else ⟨[], true, some c, []⟩

/-- What the gap stands for. -/
def fold (g : Gap) : Text :=
  if !g.isBroken then g.blanks
  else
    match g.first with
    | none => g.more
    | some '\n' => if g.more.isEmpty then [' '] else g.more
    | some c => c :: g.more

end Gap

end SetterReport.Yaml
