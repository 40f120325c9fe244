import SetterReport.Yaml.BlockScalar
import SetterReport.Yaml.Name
import SetterReport.Yaml.QuotedScalar

/-!
# From text to tokens

Two things about the tokens of YAML cannot be seen locally. Indentation is one:
`State.columns` holds the columns of the block collections that are open, and
tokens are added when a line goes deeper or comes back. The other is that a key
shows as such only by the colon after it: `State.candidates` holds, for every
level of brackets, where a key may have begun, and the tokens that open a
mapping and mark a key are put in there afterwards. A key that is not completed
on its line, or within 1024 characters, is none, and where only a key could
have stood that is a fault of the text.

`Token.scan` answers none for a text that has such a fault.
-/

namespace SetterReport.Yaml

/-- A place where a key may have begun. -/
structure Candidate where
  /-- Nothing but a key can stand there. -/
  isRequired : Bool
  /-- The number of tokens before it. -/
  position : Nat
  mark : Mark

/-- The longest key, in characters. -/
def longestKey : Nat := 1024

/-- All that reading a text depends on. -/
structure LexState where
  cursor : Cursor
  /-- The tokens so far, the last one first. -/
  tokens : List Token
  /-- How many there are. -/
  count : Nat
  /-- Possible keys, one for each level of brackets, the innermost first. -/
  candidates : List (Option Candidate)
  /-- The columns of the open block collections, the innermost first. -/
  columns : List Nat
  /-- Whether a key may begin here. -/
  allowsKey : Bool

namespace LexState

/-- Before the first character. -/
def initial (t : Text) : LexState :=
  ⟨⟨{}, t⟩, [], 0, [none], [], true⟩

/-- Whether the reader is inside brackets. -/
def inFlow (s : LexState) : Bool :=
  1 < s.candidates.length

/-- The column of the innermost block collection. -/
def column? (s : LexState) : Option Nat :=
  s.columns.head?

/-- The column of the cursor. -/
def here (s : LexState) : Nat :=
  s.cursor.mark.column

/-- Whether the innermost block collection is further left than a column. -/
def isDeeper (s : LexState) (column : Nat) : Bool :=
  s.column?.all (· < column)

/-! ## Adding tokens -/

/-- Adds a token at the end. -/
def emit (s : LexState) (t : Token) : LexState :=
  { s with tokens := t :: s.tokens, count := s.count + 1 }

/-- Adds a token before those that came after the first `position`. -/
def emitAt (s : LexState) (position : Nat) (t : Token) : LexState :=
  let later := s.count - position
  { s with
    tokens := s.tokens.take later ++ t :: s.tokens.drop later
    count := s.count + 1 }

/-- Opens a block collection at a column that is deeper than the last one. -/
def indentTo (s : LexState) (column position : Nat) (t : Token) : LexState :=
  if s.inFlow then s
  else if s.isDeeper column then { s with columns := column :: s.columns }.emitAt position t
  else s

/-- The columns that lie right of a column are closed; `none` is left of all. -/
def closeColumns (column : Option Nat) : List Nat → List Token → Nat → List Nat × List Token × Nat
  | [], tokens, count => ([], tokens, count)
  | c :: rest, tokens, count =>
    if column.all (· < c) then closeColumns column rest (.blockEnd :: tokens) (count + 1)
    else (c :: rest, tokens, count)

/-- Closes the block collections right of a column; inside brackets there are none. -/
def unindent (s : LexState) (column : Option Nat) : LexState :=
  if s.inFlow then s
  else
    let (columns, tokens, count) := closeColumns column s.columns s.tokens s.count
    { s with columns := columns, tokens := tokens, count := count }

/-! ## Possible keys -/

/-- The possible key of the innermost level. -/
def candidate? (s : LexState) : Option Candidate :=
  s.candidates.head?.join

/-- Gives up the possible key of the innermost level; a fault if it was required. -/
def dropCandidate (s : LexState) : Option LexState :=
  if s.candidate?.any (·.isRequired) then none
  else some { s with candidates := none :: s.candidates.tail }

/-- Notes that a key may begin here. -/
def noteCandidate (s : LexState) : Option LexState :=
  if s.allowsKey then do
    let isRequired := !s.inFlow && s.column? == some s.here
    let s ← s.dropCandidate
    some { s with
      candidates := some ⟨isRequired, s.count, s.cursor.mark⟩ :: s.candidates.tail }
  else some s

/-- Whether a possible key has become too long or has been left on another line. -/
def isStale (now : Mark) (k : Candidate) : Bool :=
  k.mark.line < now.line || k.mark.index + longestKey < now.index

/-- Gives up all possible keys that have become stale; a fault if one was required. -/
def dropStale (s : LexState) : Option LexState :=
  let now := s.cursor.mark
  if s.candidates.any (·.any fun k => isStale now k && k.isRequired) then none
  else some { s with candidates := s.candidates.map (·.filter fun k => !isStale now k) }

/-! ## Tokens of structure -/

/-- Moves on by `n` characters. -/
def skip (s : LexState) (n : Nat) : LexState :=
  { s with cursor := s.cursor.skip n }

/-- Sets whether a key may begin next. -/
def allowing (s : LexState) (allows : Bool) : LexState :=
  { s with allowsKey := allows }

/-- Ends all block structure. -/
def endBlocks (s : LexState) : Option LexState :=
  ((s.unindent none).dropCandidate).map (·.allowing false)

/-- An opening bracket. -/
def openFlow (s : LexState) (t : Token) : Option LexState := do
  let s ← s.noteCandidate
  some ({ s with candidates := none :: s.candidates }.allowing true |>.emit t |>.skip 1)

/-- A closing bracket. -/
def closeFlow (s : LexState) (t : Token) : Option LexState := do
  let s ← s.dropCandidate
  let candidates := if s.inFlow then s.candidates.tail else s.candidates
  some ({ s with candidates := candidates }.allowing false |>.emit t |>.skip 1)

/-- A comma inside brackets. -/
def flowEntry (s : LexState) : Option LexState := do
  let s ← s.dropCandidate
  some (s.allowing true |>.emit .flowEntry |>.skip 1)

/-- Opens a block collection here if that is needed; a fault where none can begin. -/
def beginBlock (s : LexState) (t : Token) : Option LexState :=
  if s.inFlow then some s
  else if s.allowsKey then some (s.indentTo s.here s.count t)
  else none

/-- The dash before an entry of a block sequence. -/
def blockEntry (s : LexState) : Option LexState := do
  let s ← s.beginBlock .blockSequenceStart
  let s ← s.dropCandidate
  some (s.allowing true |>.emit .blockEntry |>.skip 1)

/-- The question mark before a key. -/
def explicitKey (s : LexState) : Option LexState := do
  let s ← s.beginBlock .blockMappingStart
  let s ← s.dropCandidate
  some (s.allowing (!s.inFlow) |>.emit .key |>.skip 1)

/-- The colon before a value, after a possible key or on its own. -/
def mappingValue (s : LexState) : Option LexState :=
  match s.candidate? with
  | some k =>
    let s := s.emitAt k.position .key
    let s := s.indentTo k.mark.column k.position .blockMappingStart
    let s := { s with candidates := none :: s.candidates.tail }
    some (s.allowing false |>.emit .value |>.skip 1)
  | none => do
    let s ← s.beginBlock .blockMappingStart
    some (s.allowing (!s.inFlow) |>.emit .value |>.skip 1)

/-! ## Tokens with content -/

/-- An anchor or an alias. -/
def named (s : LexState) (make : Text → Token) : Option LexState := do
  let s ← s.noteCandidate
  let (name, cursor) ← scanName (s.cursor.skip 1)
  some ({ s with cursor := cursor }.allowing false |>.emit (make name))

/-- A tag. -/
def tagged (s : LexState) : Option LexState := do
  let s ← s.noteCandidate
  let (token, cursor) ← scanTag s.inFlow s.cursor
  some ({ s with cursor := cursor }.allowing false |>.emit token)

/-- A block scalar. -/
def blockScalar (s : LexState) (isFolded : Bool) : Option LexState := do
  let s ← s.dropCandidate
  let r ← scanBlock isFolded s.column? (s.cursor.skip 1)
  some ({ s with cursor := r.next }.allowing true |>.emit (.scalar r.text false))

/-- A quoted scalar. -/
def quotedScalar (s : LexState) (quotes : Quotes) : Option LexState := do
  let s ← s.noteCandidate
  let r ← scanQuoted quotes (s.cursor.skip 1)
  some ({ s with cursor := r.next }.allowing false |>.emit (.scalar r.text false))

/-- A plain scalar. -/
def plainScalar (s : LexState) : Option LexState := do
  let s ← s.noteCandidate
  let indent := (s.column?.map (· + 1)).getD 0
  let r ← scanPlain s.inFlow indent s.cursor
  some ({ s with cursor := r.next }.allowing r.endsLine |>.emit (.scalar r.text true))

/-- A directive. -/
def directive (s : LexState) : Option LexState := do
  let s ← s.endBlocks
  let (token, cursor) ← scanDirective (s.cursor.skip 1)
  some ({ s with cursor := cursor }.emit token)

/-- A document mark. -/
def documentMark (s : LexState) (t : Token) : Option LexState := do
  let s ← s.endBlocks
  some (s.emit t |>.skip 3)

/-! ## Reading on -/

/--
Skips blanks, comments and line ends. A tab is skipped only where it cannot be
taken for indentation, and outside brackets a new line is a place for a key. A
byte order mark is skipped where it opens a line, of which it is the first
character and takes the first column.
-/
def skipGapFrom (inFlow : Bool) : (inComment allowsKey : Bool) → Mark → Text → Bool × Cursor
  | _, allowsKey, m, [] => (allowsKey, ⟨m, []⟩)
  | inComment, allowsKey, m, c :: rest =>
    if isBreak c then skipGapFrom inFlow false (allowsKey || !inFlow) m.nextLine rest
    else if inComment || c == '#' then skipGapFrom inFlow true allowsKey m.next rest
    else if c == ' ' || (c == '\t' && (inFlow || !allowsKey)) ||
        (c == byteOrderMark && m.column == 0) then
      skipGapFrom inFlow false allowsKey m.next rest
    else (allowsKey, ⟨m, c :: rest⟩)

/-- Moves to the next character that belongs to a token. -/
def skipGap (s : LexState) : LexState :=
  let (allows, cursor) := skipGapFrom s.inFlow false s.allowsKey s.cursor.mark s.cursor.rest
  { s with cursor := cursor, allowsKey := allows }

/-- The characters that a plain scalar cannot start with. -/
def isIndicator (c : Char) : Bool :=
  "-?:,[]\x7b\x7d#&*!|>'\"%@\x60".toList.contains c

/-- Whether a plain scalar starts here. -/
def startsPlain (inFlow : Bool) (c : Char) (rest : Text) : Bool :=
  !(isIndicator c || isBlank c || isBreak c) ||
    (c == '-' && !rest.head?.any isBlank) ||
    (!inFlow && (c == '?' || c == ':') && !blankNext rest)

/-- Reads the token that starts with `c`. -/
def dispatch (s : LexState) (c : Char) (rest : Text) : Option LexState :=
  let atStart := s.here == 0
  if atStart && c == '%' then s.directive
  else if atStart && isDocumentMark (c :: rest) then
    s.documentMark (if c == '-' then .documentStart else .documentEnd)
  else if c == '[' then s.openFlow .flowSequenceStart
  else if c == '\x7b' then s.openFlow .flowMappingStart
  else if c == ']' then s.closeFlow .flowSequenceEnd
  else if c == '\x7d' then s.closeFlow .flowMappingEnd
  else if c == ',' then s.flowEntry
  else if c == '-' && blankNext rest then s.blockEntry
  else if c == '?' && (s.inFlow || blankNext rest) then s.explicitKey
  else if c == ':' && (s.inFlow || blankNext rest) then s.mappingValue
  else if c == '*' then s.named .aliasTo
  else if c == '&' then s.named .anchor
  else if c == '!' then s.tagged
  else if c == '|' && !s.inFlow then s.blockScalar false
  else if c == '>' && !s.inFlow then s.blockScalar true
  else if c == '\x27' then s.quotedScalar .single
  else if c == '\x22' then s.quotedScalar .double
  else if startsPlain s.inFlow c rest then s.plainScalar
  else none

/-- Ends the text: all that is open in block style is closed. -/
def finish (s : LexState) : Option LexState :=
  s.endBlocks

/-- Reads tokens to the end of the text, at most `fuel` of them. -/
def run : (fuel : Nat) → LexState → Option LexState
  | 0, _ => none
  | fuel + 1, s => do
    let s ← s.skipGap.dropStale
    match s.cursor.rest with
    | [] => s.finish
    | c :: rest =>
      let s := s.unindent (some s.here)
      let s ← s.dispatch c rest
      run fuel s

end LexState

/-- The tokens of a text; none if it has none. -/
def Token.scan (t : Text) : Option (List Token) :=
  if t.all isAllowed then
    let t := unifyBreaks t
    ((LexState.initial t).run (t.length + 2)).map (·.tokens.reverse)
  else none

end SetterReport.Yaml
