import SetterReport.Yaml.ScalarStyle

/-!
# Writing values

Values are written in block style: one entry a line, nested ones indented by
two. A sequence that is the value of a mapping's entry is not indented, and an
entry of a sequence may begin on the line of its dash. Empty collections are
written in brackets. A key that does not fit on a line of its own, because it
is a collection, has several lines or is long, is marked by `?` and its value
by `:` on the next line.

The writer is a `Pen`, which knows how far the line has come, whether a blank
has just been written, and whether there is nothing but indentation and marks
on the line.
-/

namespace SetterReport.Yaml

/-- What has been written, and how the line stands. -/
structure Pen where
  /-- What has been written, the last character first. -/
  written : Text := []
  column : Nat := 0
  afterBlank : Bool := true
  /-- Nothing but indentation and marks stands on the line. -/
  isFresh : Bool := true

namespace Pen

/-- Writes a character. -/
def put (p : Pen) (c : Char) : Pen :=
  { p with written := c :: p.written, column := p.column + 1 }

/-- Writes some characters. -/
def puts (p : Pen) (t : Text) : Pen :=
  t.foldl put p

/-- Ends the line with a break. -/
def putBreak (p : Pen) (c : Char) : Pen :=
  { p with written := c :: p.written, column := 0 }

/-- Goes to a column at the start of a line, on a new line if need be. -/
def indent (p : Pen) (column : Nat) : Pen :=
  let p :=
    if !p.isFresh || column < p.column || (p.column == column && !p.afterBlank) then
      p.putBreak '\n'
    else p
  let p := p.puts (Text.copies (column - p.column) ' ')
  { p with afterBlank := true, isFresh := true }

/-- Writes a blank unless there is one. -/
def blank (p : Pen) : Pen :=
  if p.afterBlank then p else p.put ' '

/-- Writes a sign that closes the fresh part of the line. -/
def sign (p : Pen) (t : Text) : Pen :=
  { p.puts t with afterBlank := false, isFresh := false }

/-- Writes a mark of an entry, after which the line is as fresh as before. -/
def mark (p : Pen) (c : Char) : Pen :=
  { p.blank.put c with afterBlank := false }

end Pen

/-! ## Scalars -/

/-- The upper-case hexadecimal digits of a number, at least so many. -/
def hexUpper (width n : Nat) : Text :=
  let ds := (Nat.toDigits 16 n).map Char.toUpper
  Text.copies (width - ds.length) '0' ++ ds

/-- The letter of an escape in double quotes, where there is one. -/
def escapeLetter? (c : Char) : Option Char :=
  match c.toNat with
  | 0x00 => some '0'
  | 0x07 => some 'a'
  | 0x08 => some 'b'
  | 0x09 => some 't'
  | 0x0A => some 'n'
  | 0x0B => some 'v'
  | 0x0C => some 'f'
  | 0x0D => some 'r'
  | 0x1B => some 'e'
  | 0x22 => some '\x22'
  | 0x5C => some '\\'
  | 0x85 => some 'N'
  | 0xA0 => some '_'
  | 0x2028 => some 'L'
  | 0x2029 => some 'P'
  | _ => none

/-- A character between double quotes. -/
def doubleQuotedChar (c : Char) : Text :=
  if isWritable c && !isBreak c && c != '\x22' && c != '\\' then [c]
  else
    match escapeLetter? c with
    | some x => ['\\', x]
    | none =>
      let n := c.toNat
      if n ≤ 0xFF then '\\' :: 'x' :: hexUpper 2 n
      else if n ≤ 0xFFFF then '\\' :: 'u' :: hexUpper 4 n
      else '\\' :: 'U' :: hexUpper 8 n

namespace Pen

/-- Writes the inside of a single-quoted scalar; `afterBreak` says that a line has just ended. -/
def singleQuoted (column : Nat) : (afterBreak : Bool) → Text → Pen → Pen
  | afterBreak, [], p => if afterBreak then p.indent column else p
  | afterBreak, c :: rest, p =>
    if c == ' ' then singleQuoted column afterBreak rest (p.put c)
    else if isBreak c then
      let p := if !afterBreak && c == '\n' then p.putBreak '\n' else p
      singleQuoted column true rest { p.putBreak c with isFresh := true }
    else
      let p := if afterBreak then p.indent column else p
      let p := if c == '\x27' then p.put c else p
      singleQuoted column false rest { p.put c with isFresh := false }

/-- Writes the lines of a block scalar. -/
def literal (column : Nat) : (afterBreak : Bool) → Text → Pen → Pen
  | _, [], p => p
  | afterBreak, c :: rest, p =>
    if isBreak c then literal column true rest { p.putBreak c with isFresh := true }
    else
      let p := if afterBreak then p.indent column else p
      literal column false rest { p.put c with isFresh := false }

end Pen

/-- What the header of a block scalar says about its indentation and its end. -/
def literalHints (t : Text) : Text :=
  (if t.head?.any fun c => c == ' ' || isBreak c then ['2'] else []) ++
    match t.reverse with
    | [] => ['-']
    | [c] => if isBreak c then ['+'] else ['-']
    | c :: d :: _ => if !isBreak c then ['-'] else if isBreak d then ['+'] else []

/-- Writes a scalar whose further lines go to a column. -/
def Pen.scalar (p : Pen) (style : ScalarStyle) (column : Nat) (t : Text) : Pen :=
  match style with
  | .plain =>
    let p := if t.isEmpty then p else p.blank
    { p.puts t with afterBlank := false, isFresh := false }
  | .singleQuoted => ((p.blank.sign ['\x27']).singleQuoted column false t).sign ['\x27']
  | .doubleQuoted => p.blank.sign ('\x22' :: t.flatMap doubleQuotedChar ++ ['\x22'])
  | .literal =>
    let p := p.blank.sign ('|' :: literalHints t)
    { p.putBreak '\n' with isFresh := true, afterBlank := true }.literal column true t

/-! ## Tags -/

/-- The characters of a tag that need no escape. -/
def isPlainTagChar (c : Char) : Bool :=
  isWordChar c || ";/?:@&=+$,.~*'()[]".toList.contains c

/-- A character as escaped bytes. -/
def percentEscape (c : Char) : Text :=
  (String.toUTF8 (String.ofList [c])).toList.flatMap fun b => '%' :: hexUpper 2 b.toNat

/-- The content of a tag, with escapes. -/
def tagContent (t : Text) : Text :=
  t.flatMap fun c => if isPlainTagChar c then [c] else percentEscape c

/-- The name of a tag as it is written: without up to three exclamation marks in front. -/
def writtenTag (tag : Text) : Text :=
  Value.bareTag (Value.bareTag (Value.bareTag tag))

/-- A local tag as it is written. -/
def tagText (tag : Text) : Text :=
  match writtenTag tag with
  | ['!'] => "!<%21>".toList
  | name => '!' :: tagContent name

/-- The length of a tag for the decision whether a key is short. -/
def tagLength (tag : Option Text) : Nat :=
  match tag with
  | none => 0
  | some t =>
    match writtenTag t with
    | ['!'] => 1
    | name => 1 + name.utf8Length

/-- Writes a tag, if there is one. -/
def Pen.tag (p : Pen) (tag : Option Text) : Pen :=
  match tag with
  | none => p
  | some t => p.blank.sign (tagText t)

/-! ## Values -/

/-- The text of a scalar value, and the style that it should have. -/
def scalarText? : Value → Option (Text × ScalarStyle)
  | .null => some ("null".toList, .plain)
  | .bool b => some (if b then "true".toList else "false".toList, .plain)
  | .number n => some (n.text, .plain)
  | .string t => some (t, wantedStyle t)
  | _ => none

/-- The longest key that is written on one line with its value, in bytes. -/
def longestSimpleKey : Nat := 128

/-- Whether a key can be written on one line with its value. -/
def isSimpleKey (tag : Option Text) : Value → Bool
  | .tagged t v => isSimpleKey (some t) v
  | .sequence items => items.isEmpty && tagLength tag ≤ longestSimpleKey
  | .mapping entries => entries.isEmpty && tagLength tag ≤ longestSimpleKey
  | v =>
    match scalarText? v with
    | some (t, _) => !t.any isBreak && tagLength tag + t.utf8Length ≤ longestSimpleKey
    | none => false

/-- The column one level further in. -/
def deeper : Option Nat → Nat
  | none => 0
  | some column => column + 2

/-- Where a value stands. -/
inductive Position
  | root
  | item
  /-- A key on one line with its value. -/
  | simpleKey
  /-- A marked key, or the value of an entry. -/
  | entry
deriving DecidableEq

/-- The column of the entries of a sequence. -/
def sequenceColumn (position : Position) (column : Option Nat) (p : Pen) : Nat :=
  match position, column with
  | .entry, some c => if p.isFresh then c + 2 else c
  | _, _ => deeper column

namespace Pen

/-- Writes the colon after a key, on the same line or marked on the next. -/
def colon (p : Pen) (isSimple : Bool) (column : Nat) : Pen :=
  if isSimple then p.sign [':'] else (p.indent column).mark ':'

/-- Writes a value that is no collection. -/
def atom (position : Position) (column : Option Nat) (tag : Option Text) (v : Value)
    (p : Pen) : Pen :=
  match scalarText? v with
  | none => p
  | some (t, wanted) =>
    let further := (column.map (· + 2)).getD 2
    (p.tag tag).scalar (styleFor wanted (position == .simpleKey) t) further t

mutual

/-- Writes a value; `column` is that of the collection around it. -/
def value (position : Position) (column : Option Nat) (tag : Option Text) : Value → Pen → Pen
  | .tagged t v, p => value position column (some t) v p
  | .sequence [], p => (p.tag tag).blank.sign ['[', ']']
  | .sequence (x :: rest), p =>
    let p := p.tag tag
    items (sequenceColumn position column p) (x :: rest) p
  | .mapping [], p => (p.tag tag).blank.sign ['\x7b', '\x7d']
  | .mapping (e :: rest), p => entries (deeper column) (e :: rest) (p.tag tag)
  | .null, p => atom position column tag .null p
  | .bool b, p => atom position column tag (.bool b) p
  | .number n, p => atom position column tag (.number n) p
  | .string t, p => atom position column tag (.string t) p
termination_by structural v => v

/-- Writes the items of a sequence. -/
def items (column : Nat) : List Value → Pen → Pen
  | [], p => p
  | x :: rest, p => items column rest (value .item (some column) none x ((p.indent column).mark '-'))
termination_by structural xs => xs

/-- Writes the entries of a mapping. -/
def entries (column : Nat) : List (Value × Value) → Pen → Pen
  | [], p => p
  | (k, v) :: rest, p =>
    let isSimple := isSimpleKey none k
    let p := p.indent column
    let p :=
      if isSimple then value .simpleKey (some column) none k p
      else value .entry (some column) none k (p.mark '?')
    entries column rest (value .entry (some column) none v (p.colon isSimple column))
termination_by structural es => es

end

end Pen

/-! ## What can be written -/

/-- Whether a value is a tagged one, or an untagged mapping of one entry. -/
def isSingular : Value → Bool
  | .tagged .. => true
  | .mapping [_] => true
  | _ => false

mutual

/--
Whether a value can be written. A mapping of one entry without a tag looks like
the notation for a tagged value, and cannot have a key that looks so too.
-/
def canWrite (hasTag : Bool) : Value → Bool
  | .tagged _ v => !hasTag && canWrite true v
  | .sequence items => canWriteItems items
  | .mapping entries => canWriteEntries (!hasTag && entries.length == 1) entries
  | _ => true
termination_by structural v => v

/-- Whether all items can be written. -/
def canWriteItems : List Value → Bool
  | [] => true
  | x :: rest => canWrite false x && canWriteItems rest
termination_by structural xs => xs

/-- Whether all entries can be written; `isPlainPair` says that there is one, without a tag. -/
def canWriteEntries (isPlainPair : Bool) : List (Value × Value) → Bool
  | [] => true
  | (k, v) :: rest =>
    !(isPlainPair && isSingular k) && canWrite false k && canWrite false v &&
      canWriteEntries isPlainPair rest
termination_by structural es => es

end

/-- The text of a value, without blanks at its end; none if it cannot be written. -/
def Value.print (v : Value) : Option Text :=
  if canWrite false v then some (Text.trimEnd ((Pen.value .root none none v {}).written.reverse))
  else none

end SetterReport.Yaml
