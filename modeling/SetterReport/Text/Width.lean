import SetterReport.Text.Terminal
import SetterReport.Unicode.Combining
import SetterReport.Unicode.Emoji
import SetterReport.Unicode.Wide

/-!
# The width of a text

How many columns a text takes on a terminal. Control sequences take none. Of
the remaining characters most take one column, wide ones two, and combining
ones none; but some characters are drawn together with what follows them, and
then the group has one width. So a text is measured from its end: each
character is looked at with what `follows` it, and passes on what it is itself.

The groups are line endings of two characters, pictures built with variation
selectors, skin tones and joiners, flags, and the ligatures of Arabic, Hebrew,
Khmer, Lisu and Old Turkic. The ligatures of three other scripts are left out,
and their characters measured one by one: consonants across a joiner in
Tifinagh, `a` with `i` and `ya` across a joiner in Buginese, and the vowel signs
of Kirat Rai that combine.
-/

namespace SetterReport.Text

open Unicode

/-! ## Characters by themselves -/

/-- Hangul jamo that are drawn into the syllable before them. -/
def hangulMedial : Ranges :=
  [(0x1160, 0x11FF), (0xD7B0, 0xD7C6), (0xD7CB, 0xD7FB)]

/-- Signs that enclose or precede a number, and vowel signs that split in two. -/
def drawnTogether : Ranges :=
  [(0x605, 0x605), (0x70F, 0x70F), (0x890, 0x891), (0x8E2, 0x8E2), (0xCC0, 0xCC0),
   (0xCC7, 0xCC8), (0xCCA, 0xCCB), (0x1B3B, 0x1B3B), (0x1B3D, 0x1B3D), (0x1B43, 0x1B43),
   (0xA8FA, 0xA8FA)]

/-- Whether a character takes no column. -/
def isColumnless (n : Nat) : Bool :=
  n != 0x115F && n != 0x2D7F &&
    (defaultIgnorable.holds n || graphemeExtend.holds n || hangulMedial.holds n ||
      drawnTogether.holds n || prepended.holds n)

/-- The columns of a character by itself. -/
def columns (n : Nat) : Nat :=
  if n ≤ 0xA0 then 1
  else if isColumnless n then 0
  else if wide.holds n then 2
  else 1

/-! ## Characters in their surroundings -/

/-- What a character is to the one before it. -/
inductive Follower
  | plain
  | lineFeed
  /-- A picture. -/
  | picture
  /-- A joiner that has a picture after it. -/
  | joinedPicture
  /-- A skin tone. -/
  | skinTone
  /-- A letter of a flag. -/
  | flagLetter
  /-- An odd or even number of flag letters joined to a picture. -/
  | joinedFlag (isEven : Bool)
  /-- An Arabic alef. -/
  | alef
  /-- A Khmer letter that can be written below another one. -/
  | khmerLetter
  /-- A tone letter of Lisu that pairs with another one. -/
  | lisuTone
  /-- A letter that fuses with another one across a joiner. -/
  | fusing (letter : Nat)
  /-- A joiner that has such a letter after it. -/
  | joinedFusing (letter : Nat)
deriving DecidableEq

/-- A variation selector. -/
inductive Selector
  | picture
  | text
deriving DecidableEq

/-- All that is known of what follows: a follower, and a variation selector before it. -/
structure Following where
  follower : Follower
  selector : Option Selector
deriving DecidableEq

/-- Nothing of note follows. -/
def Following.none : Following := ⟨.plain, Option.none⟩

/-- A follower without a variation selector. -/
def Following.of (f : Follower) : Following := ⟨f, Option.none⟩

/-- The zero width joiner. -/
def joiner : Nat := 0x200D

/-- The letters that a flag is spelled with. -/
def isFlagLetter (n : Nat) : Bool := 0x1F1E6 ≤ n && n ≤ 0x1F1FF

/-- The five skin tones. -/
def isSkinTone (n : Nat) : Bool := 0x1F3FB ≤ n && n ≤ 0x1F3FF

/-- The letters of the alef group. -/
def alefLetters : Ranges :=
  [(0x622, 0x623), (0x625, 0x625), (0x627, 0x627), (0x671, 0x673), (0x675, 0x675),
   (0x773, 0x774), (0x870, 0x882)]

/-- The letters of the lam group. -/
def lamLetters : Ranges :=
  [(0x644, 0x644), (0x6B5, 0x6B8), (0x76A, 0x76A), (0x8A6, 0x8A6), (0x8C7, 0x8C7)]

/-- The Khmer letters that can be written below another one. -/
def khmerLetters : Ranges :=
  [(0x1780, 0x1782), (0x1784, 0x1787), (0x1789, 0x178C), (0x178E, 0x1793), (0x1795, 0x1798),
   (0x179B, 0x179D), (0x17A0, 0x17A0), (0x17A2, 0x17A2), (0x17A7, 0x17A7), (0x17AB, 0x17AC),
   (0x17AF, 0x17AF)]

/-- The Khmer sign that puts the next letter below the one before. -/
def khmerSign : Nat := 0x17D2

/-- Pairs of letters that become one sign across a joiner. -/
def fusedPairs : List (Nat × Nat) :=
  [(0x5D0, 0x5DC), (0x10C32, 0x10C03)]

/-- What a character is to the one before it, when it stands by itself. -/
def followerOf (n : Nat) : Follower :=
  if alefLetters.holds n then .alef
  else if khmerLetters.holds n then .khmerLetter
  else if 0xA4FC ≤ n && n ≤ 0xA4FD then .lisuTone
  else if fusedPairs.any (·.2 == n) then .fusing n
  else if isFlagLetter n then .flagLetter
  else if isSkinTone n then .skinTone
  else if emojiPresentation.holds n then .picture
  else .plain

/-- Whether a text selector makes a picture narrow: not so for squared signs. -/
def yieldsToText (n : Nat) : Bool :=
  emojiVariationBase.holds n && emojiPresentation.holds n && !(0x1F200 ≤ n && n ≤ 0x1F2FF)

/-- The columns and the follower of a character after which something of note stands. -/
def inGroup (n : Nat) (next : Follower) : Int × Following :=
  let alone : Int × Following := (columns n, .of (followerOf n))
  match next with
  | .alef =>
    if lamLetters.holds n then (0, .none)
    else if isColumnless n then (0, .of .alef)
    else alone
  | .khmerLetter => if n = khmerSign then (-1, .none) else alone
  | .lisuTone => if 0xA4F8 ≤ n && n ≤ 0xA4FB then (0, .none) else alone
  | .fusing letter => if n = joiner then (0, .of (.joinedFusing letter)) else alone
  | .joinedFusing letter => if fusedPairs.contains (n, letter) then (0, .none) else alone
  | .skinTone =>
    if emojiModifierBase.holds n then (0, .of .picture)
    else if n = joiner then (0, .of .joinedPicture)
    else alone
  | .picture | .flagLetter | .joinedFlag _ =>
    if n = joiner then (0, .of .joinedPicture)
    else
      match next with
      | .joinedFlag isEven =>
        if isFlagLetter n then
          if isEven then (3, .of (.joinedFlag false)) else (-1, .of (.joinedFlag true))
        else alone
      | _ => alone
  | .joinedPicture =>
    if isFlagLetter n then (1, .of (.joinedFlag false))
    else if isSkinTone n then (0, .of .skinTone)
    else if emojiPresentation.holds n then (0, .of .picture)
    else alone
  | .plain | .lineFeed => alone

/-- The columns that a character adds to what follows it, and what it is itself. -/
def measure (c : Char) (next : Following) : Int × Following :=
  let n := c.toNat
  let isJoined := next.follower == .joinedPicture
  if next.selector == some .picture && emojiVariationBase.holds n then
    (if isJoined then 0 else 2, .of .picture)
  else if next.selector == some .text && yieldsToText n then (1, .none)
  else if n ≤ 0xA0 then
    if c == '\n' then (1, .of .lineFeed)
    else if c == '\r' && next == .of .lineFeed then (0, .none)
    else (1, .none)
  else if n = 0xFE0F then
    (0, ⟨if isJoined then .joinedPicture else .plain, some .picture⟩)
  else if n = 0xFE0E then (0, ⟨.plain, some .text⟩)
  else inGroup n next.follower

/-- The columns of a text without control sequences, and what its first character is. -/
def measureAll : Text → Int × Following
  | [] => (0, .none)
  | c :: rest =>
    let (later, next) := measureAll rest
    let (here, self) := measure c next
    (here + later, self)

/--
The columns that a text takes on a terminal. Of the ligatures those of Arabic,
Hebrew, Khmer, Lisu and Old Turkic are measured as groups, and those of Tifinagh,
Buginese and Kirat Rai by their characters.
-/
def width (t : Text) : Nat :=
  (measureAll (Terminal.strip t)).1.toNat

/-- The text with spaces after it, up to a width. -/
def padTo (w : Nat) (t : Text) : Text :=
  t ++ copies (w - width t) ' '

end SetterReport.Text
