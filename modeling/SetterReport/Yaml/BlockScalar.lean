import SetterReport.Yaml.PlainScalar

/-!
# Block scalars

A block scalar is the text of indented lines after a header. The header says
whether lines are kept or folded, may fix the indentation, and says what
happens to the line ends at the end: by default one is kept, `-` drops and `+`
keeps them all. Without a fixed indentation the first line that is not empty
decides, and in any case the text is indented more than what is around it.
-/

namespace SetterReport.Yaml

/-- What happens to the line ends at the end of a block scalar. -/
inductive Chomping
  | strip
  | clip
  | keep
deriving DecidableEq

/-- The header of a block scalar. -/
structure BlockHeader where
  isFolded : Bool
  chomping : Chomping
  /-- The indentation relative to what is around it, if it is fixed. -/
  increment : Option Nat

/-- The chomping that a sign stands for. -/
def chompingOf? : Char → Option Chomping
  | '-' => some .strip
  | '+' => some .keep
  | _ => none

/-- Reads an indentation digit, which must not be zero; nothing is read if there is none. -/
def scanIncrement (c : Cursor) : Option (Option Nat × Cursor) :=
  match c.peek with
  | some d =>
    if d.isDigit then
      if d == '0' then none else some (some (d.toNat - 48), c.skip 1)
    else some (none, c)
  | none => some (none, c)

/-- Reads a chomping sign; nothing is read if there is none. -/
def scanChomping (c : Cursor) : Option Chomping × Cursor :=
  match c.peek.bind chompingOf? with
  | some x => (some x, c.skip 1)
  | none => (none, c)

/-- Reads the header of a block scalar after its indicator, with the rest of its line. -/
def scanBlockHeader (isFolded : Bool) (c : Cursor) : Option (BlockHeader × Cursor) := do
  let (before, c) := scanChomping c
  let (increment, c) ← scanIncrement c
  let (after, c) := if before.isNone && increment.isSome then scanChomping c else (none, c)
  let c ← c.skipLineEnd
  some (⟨isFolded, (before.or after).getD .clip, increment⟩, c)

/-- What has been read of a block scalar. -/
structure BlockText where
  /-- The text, last character first. -/
  read : Text := []
  /-- The line end of the last line. -/
  lastBreak : Text := []
  /-- The line ends of the empty lines after it. -/
  emptyBreaks : Text := []
  /-- Whether the last line started with a blank. -/
  startedBlank : Bool := false

namespace BlockText

/-- Joins the next line, which starts with `c`, to the text so far. -/
def openLine (isFolded : Bool) (c : Char) (b : BlockText) : BlockText :=
  let joint :=
    if isFolded && b.lastBreak == ['\n'] && !b.startedBlank && !isBlank c then
      if b.emptyBreaks.isEmpty then [' '] else b.emptyBreaks
    else b.lastBreak ++ b.emptyBreaks
  ⟨joint.reverse ++ b.read, [], [], isBlank c⟩

/-- The text with the line ends that the header leaves. -/
def close (chomping : Chomping) (b : BlockText) : Text :=
  b.read.reverse ++
    match chomping with
    | .strip => []
    | .clip => b.lastBreak
    | .keep => b.lastBreak ++ b.emptyBreaks

end BlockText

/-- The indentation that the lines read so far decide on. -/
def decideIndent (fixed : Option Nat) (least widest : Nat) : Nat :=
  fixed.getD (max (max widest least) 1)

/--
Reads on in a block scalar. `fixed` is the indentation once it is decided,
`widest` the deepest column of the empty lines before that, and `inLine` says
whether the indentation of the line has been passed.
-/
def scanBlockFrom (header : BlockHeader) (least : Nat) :
    (inLine : Bool) → (fixed : Option Nat) → (widest : Nat) → BlockText → Mark → Text →
      Option ScannedScalar
  | _, _, _, b, m, [] => some ⟨b.close header.chomping, true, ⟨m, []⟩⟩
  | true, fixed, widest, b, m, c :: rest =>
    if isBreak c then
      scanBlockFrom header least false fixed widest { b with lastBreak := [c] } m.nextLine rest
    else
      scanBlockFrom header least true fixed widest { b with read := c :: b.read } m.next rest
  | false, fixed, widest, b, m, c :: rest =>
    let isBefore := fixed.all (m.column < ·)
    if isBefore && c == ' ' then
      scanBlockFrom header least false fixed (max widest (m.column + 1)) b m.next rest
    else if isBefore && c == '\t' then none
    else if isBreak c then
      scanBlockFrom header least false fixed widest
        { b with emptyBreaks := b.emptyBreaks ++ [c] } m.nextLine rest
    else
      let indent := decideIndent fixed least widest
      if m.column = indent then
        let b := b.openLine header.isFolded c
        scanBlockFrom header least true (some indent) widest { b with read := c :: b.read }
          m.next rest
      else some ⟨b.close header.chomping, true, ⟨m, c :: rest⟩⟩

/--
Reads a block scalar after its indicator; `around` is the indentation of the
block around it, if there is one.
-/
def scanBlock (isFolded : Bool) (around : Option Nat) (c : Cursor) : Option ScannedScalar := do
  let (header, c) ← scanBlockHeader isFolded c
  let fixed := header.increment.map fun n => around.getD 0 + n
  let least := (around.map (· + 1)).getD 0
  scanBlockFrom header least false fixed 0 {} c.mark c.rest

end SetterReport.Yaml
