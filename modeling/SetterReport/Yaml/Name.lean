import SetterReport.Yaml.Cursor
import SetterReport.Yaml.Token

/-!
# Names, tags and directives

The tokens that are not structure and not scalars. An anchor or alias is named
by letters, digits, `_` and `-`. A tag is a handle between exclamation marks
with a suffix, or stands in full between angle brackets; in suffixes a percent
sign and two hexadecimal digits stand for a byte, and the bytes so written have
to come in groups of the form of UTF-8.
-/

namespace SetterReport.Yaml

/-! ## Anchors and aliases -/

/-- Whether a name may end here. -/
def nameEnds : Text → Bool
  | [] => true
  | c :: _ => isBlank c || isBreak c || "?:,]\x7d%@\x60".toList.contains c

/-- Reads the name of an anchor or alias after its indicator. -/
def scanName (c : Cursor) : Option (Text × Cursor) :=
  match c.span isWordChar with
  | ([], _) => none
  | (name, c) => if nameEnds c.rest then some (name, c) else none

/-! ## Tags -/

/-- The characters of a tag's suffix, apart from escapes. -/
def isTagChar (inFull : Bool) (c : Char) : Bool :=
  isWordChar c || ";/?:@&=+$.!~*'()".toList.contains c || (inFull && ",[]".toList.contains c)

/-- A byte written as a percent sign and two hexadecimal digits. -/
def scanByte (c : Cursor) : Option (Nat × Cursor) :=
  match c.rest with
  | '%' :: a :: b :: _ => do
    let a ← Text.hexDigit? a
    let b ← Text.hexDigit? b
    some (a * 16 + b, c.skip 3)
  | _ => none

/-- The number of bytes in a group that starts with this one. -/
def groupLength? (b : Nat) : Option Nat :=
  if b < 0x80 then some 1
  else if 0xC0 ≤ b && b < 0xE0 then some 2
  else if 0xE0 ≤ b && b < 0xF0 then some 3
  else if 0xF0 ≤ b && b < 0xF8 then some 4
  else none

/-- Reads the bytes that continue a group. -/
def scanGroupRest : (count : Nat) → Cursor → Option (List Nat × Cursor)
  | 0, c => some ([], c)
  | count + 1, c => do
    let (b, c) ← scanByte c
    if 0x80 ≤ b && b < 0xC0 then
      let (bs, c) ← scanGroupRest count c
      some (b :: bs, c)
    else none

/-- Reads a group of escaped bytes and decodes it. -/
def scanGroup (c : Cursor) : Option (TagText × Cursor) := do
  let (b, c) ← scanByte c
  let count ← groupLength? b
  let (bs, c) ← scanGroupRest (count - 1) c
  match String.fromUTF8? ⟨((b :: bs).map Nat.toUInt8).toArray⟩ with
  | some s => some (⟨s.toList, true⟩, c)
  | none => some (⟨[], false⟩, c)

/-- Two parts of a tag together. -/
def TagText.append (a b : TagText) : TagText :=
  ⟨a.text ++ b.text, a.isReadable && b.isReadable⟩

/-- Reads tag characters and escapes for as long as there are some; `fuel` bounds their number. -/
def scanTagText (inFull : Bool) : (fuel : Nat) → Cursor → Option (TagText × Cursor)
  | 0, _ => none
  | fuel + 1, c =>
    match c.rest with
    | '%' :: _ => do
      let (here, c) ← scanGroup c
      let (later, c) ← scanTagText inFull fuel c
      some (here.append later, c)
    | x :: _ =>
      if isTagChar inFull x then do
        let (later, c) ← scanTagText inFull fuel (c.skip 1)
        some (TagText.append ⟨[x], true⟩ later, c)
      else some (⟨[], true⟩, c)
    | [] => some (⟨[], true⟩, c)

/-- Reads the text of a tag; whether it may be empty is up to the caller. -/
def scanSuffix (inFull : Bool) (c : Cursor) : Option (TagText × Cursor) :=
  scanTagText inFull (c.rest.length + 1) c

/-- Reads the text of a tag that must not be empty. -/
def scanSomeSuffix (inFull : Bool) (c : Cursor) : Option (TagText × Cursor) := do
  let (t, after) ← scanSuffix inFull c
  if after.mark.index = c.mark.index then none else some (t, after)

/-- Reads a handle: an exclamation mark, word characters, and another mark if one follows. -/
def scanHandle (c : Cursor) : Option (Text × Cursor) :=
  match c.rest with
  | '!' :: _ =>
    let (word, c) := (c.skip 1).span isWordChar
    if c.peek == some '!' then some ('!' :: word ++ ['!'], c.skip 1) else some ('!' :: word, c)
  | _ => none

/-- Whether a handle is closed by an exclamation mark of its own. -/
def isClosedHandle (handle : Text) : Bool :=
  2 ≤ handle.length && handle.getLast? == some '!'

/-- The tag token of a handle that was left open: the handle is the start of the suffix. -/
def openTag (start : Text) (t : TagText) : Token :=
  match start ++ t.text, t.isReadable with
  | ['!'], true => .tag none ⟨['!'], true⟩
  | text, isReadable => .tag (some ['!']) ⟨text.drop 1, isReadable⟩

/-- Whether a tag may end here. -/
def tagEnds (inFlow : Bool) (t : Text) : Bool :=
  blankNext t || (inFlow && t.head? == some ',')

/-- Reads a tag. -/
def scanTag (inFlow : Bool) (c : Cursor) : Option (Token × Cursor) := do
  let (token, c) ←
    match c.rest with
    | '!' :: '<' :: _ => do
      let (t, c) ← scanSomeSuffix true (c.skip 2)
      if c.peek == some '>' then some (Token.tag none t, c.skip 1) else none
    | _ => do
      let (handle, c) ← scanHandle c
      if isClosedHandle handle then
        let (t, c) ← scanSomeSuffix false c
        some (Token.tag (some handle) t, c)
      else
        let (t, c) ← scanSuffix false c
        some (openTag handle t, c)
  if tagEnds inFlow c.rest then some (token, c) else none

/-! ## Directives -/

/-- The longest version number, in digits. -/
def longestVersion : Nat := 9

/-- Reads one part of a version. -/
def scanVersionNumber (c : Cursor) : Option (Nat × Cursor) :=
  let (digits, c) := c.span Char.isDigit
  if digits.isEmpty || longestVersion < digits.length then none
  else some (digits.foldl (fun n d => 10 * n + (d.toNat - 48)) 0, c)

/-- Reads the parameter of a version directive. -/
def scanVersion (c : Cursor) : Option (Token × Cursor) := do
  let (major, c) ← scanVersionNumber c
  if c.peek == some '.' then
    let (minor, c) ← scanVersionNumber (c.skip 1)
    some (.versionDirective major minor, c)
  else none

/-- Reads the parameters of a tag directive. -/
def scanTagDirective (c : Cursor) : Option (Token × Cursor) := do
  let (handle, c) ← scanHandle c
  if handle == ['!'] || isClosedHandle handle then
    if c.peek.any isBlank then
      let (lead, c) ← scanSomeSuffix true (c.skipWhile isBlank)
      if blankNext c.rest then some (.tagDirective handle lead, c) else none
    else none
  else none

/-- Reads a directive after its percent sign, with the rest of its line. -/
def scanDirective (c : Cursor) : Option (Token × Cursor) := do
  let (name, c) := c.span isWordChar
  if blankNext c.rest then
    let c := c.skipWhile isBlank
    let (token, c) ←
      if name == "YAML".toList then scanVersion c
      else if name == "TAG".toList then scanTagDirective c
      else none
    let c ← c.skipLineEnd
    some (token, c)
  else none

end SetterReport.Yaml
