import Mathlib.Data.Char
import SetterReport.Json

/-!
# Spelling a text as a JSON string

Between its quotes a JSON string spells a text in one of many ways: a character may
stand for itself, or be escaped by a letter, by its code in four hexadecimal digits,
or, beyond the sixteen-bit codes, by the codes of a surrogate pair.  `Spells` admits
all of them, and says nothing of how they are read.

`readString_of_spells` is the round trip for every spelling.  An object with one
member is then read back whatever stands between its tokens (`read_of_isOneMember`).

## Main results

* `readString_of_spells` — every spelling of a text is read as the text.
* `spells_written` — every text has a spelling.
* `read_of_isOneMember` — an object with one member is read as that.
-/

namespace SetterReport.Json

/-! ## Hexadecimal codes -/

/-- A digit of the given value, the letters among them in either case. -/
def IsHexDigit (d : Char) (v : Nat) : Prop :=
  v < 16 ∧ (d = Nat.digitChar v ∨ d = (Nat.digitChar v).toUpper)

/-- Four hexadecimal digits of the given value. -/
inductive IsHexCode : Text → Nat → Prop
  | mk {a b c d : Char} {va vb vc vd : Nat} (ha : IsHexDigit a va) (hb : IsHexDigit b vb)
      (hc : IsHexDigit c vc) (hd : IsHexDigit d vd) :
      IsHexCode [a, b, c, d] (va * 0x1000 + vb * 0x100 + vc * 0x10 + vd)

theorem hexDigit?_of_isHexDigit {d : Char} {v : Nat} (h : IsHexDigit d v) :
    Text.hexDigit? d = some v := by
  obtain ⟨hv, hd⟩ := h
  have hall : ∀ v : Fin 16, Text.hexDigit? (Nat.digitChar v) = some v.val ∧
      Text.hexDigit? (Nat.digitChar v).toUpper = some v.val := by decide
  rcases hd with rfl | rfl
  · exact (hall ⟨v, hv⟩).1
  · exact (hall ⟨v, hv⟩).2

theorem hexCode?_of_isHexCode {a b c d : Char} {n : Nat} (h : IsHexCode [a, b, c, d] n) :
    hexCode? a b c d = some n := by
  cases h with
  | mk ha hb hc hd =>
      rename_i va vb vc vd
      simp only [hexCode?, hexDigit?_of_isHexDigit ha, hexDigit?_of_isHexDigit hb,
        hexDigit?_of_isHexDigit hc, hexDigit?_of_isHexDigit hd, bind, Option.bind_some]
      congr 1
      omega

/-! ## Spellings -/

/-- The letters that escape a character, with the character. -/
def letterEscapes : List (Char × Char) :=
  [('\x22', '\x22'), ('\\', '\\'), ('/', '/'), ('b', '\x08'), ('f', '\x0c'), ('n', '\n'),
    ('r', '\r'), ('t', '\t')]

/-- The first code of a character beyond the sixteen-bit codes: its upper ten bits. -/
def highCode (c : Char) : Nat := 0xD800 + (c.toNat - 0x10000) / 0x400

/-- The second code of a character beyond the sixteen-bit codes: its lower ten bits. -/
def lowCode (c : Char) : Nat := 0xDC00 + (c.toNat - 0x10000) % 0x400

/-- `Spells body t`: between the quotes of a JSON string, `body` stands for `t`. -/
inductive Spells : Text → Text → Prop
  | nil : Spells [] []
  | self {c : Char} {body t : Text} (hcontrol : 0x20 ≤ c.toNat) (hquote : c ≠ '\x22')
      (hback : c ≠ '\\') (h : Spells body t) : Spells (c :: body) (c :: t)
  | letter {e c : Char} {body t : Text} (he : (e, c) ∈ letterEscapes) (h : Spells body t) :
      Spells ('\\' :: e :: body) (c :: t)
  | code {digits : Text} {c : Char} {body t : Text} (hcode : IsHexCode digits c.toNat)
      (h : Spells body t) : Spells ('\\' :: 'u' :: (digits ++ body)) (c :: t)
  | pair {high low : Text} {c : Char} {body t : Text} (hc : 0x10000 ≤ c.toNat)
      (hhigh : IsHexCode high (highCode c)) (hlow : IsHexCode low (lowCode c))
      (h : Spells body t) :
      Spells ('\\' :: 'u' :: (high ++ '\\' :: 'u' :: (low ++ body))) (c :: t)

/-! ## Reading pieces -/

section Pieces

variable {rest after : Text} {ps : List Piece}

theorem pieces_quote (rest : Text) : pieces ('\x22' :: rest) = some ([], rest) := by
  rw [pieces]

theorem pieces_self {c : Char} (hcontrol : 0x20 ≤ c.toNat) (hquote : c ≠ '\x22')
    (hback : c ≠ '\\') (h : pieces rest = some (ps, after)) :
    pieces (c :: rest) = some (.char c :: ps, after) := by
  rw [pieces]
  · rw [if_neg (by omega), h]
    rfl
  · exact fun h => hquote h
  · rintro a b d e tail rfl
    exact absurd rfl hback
  · rintro e tail rfl
    exact absurd rfl hback

theorem pieces_letter {e c : Char} (he : (e, c) ∈ letterEscapes)
    (h : pieces rest = some (ps, after)) :
    pieces ('\\' :: e :: rest) = some (.char c :: ps, after) := by
  have hne : e ≠ 'u' := by
    rintro rfl
    simp [letterEscapes] at he
  have hescape : escape? e = some c := by
    simp only [letterEscapes, List.mem_cons, Prod.mk.injEq, List.not_mem_nil, or_false] at he
    rcases he with ⟨rfl, rfl⟩ | ⟨rfl, rfl⟩ | ⟨rfl, rfl⟩ | ⟨rfl, rfl⟩ | ⟨rfl, rfl⟩ | ⟨rfl, rfl⟩ |
      ⟨rfl, rfl⟩ | ⟨rfl, rfl⟩ <;> rfl
  rw [pieces]
  · rw [hescape, h]
    rfl
  · rintro a b d f tail rfl
    exact absurd rfl hne

theorem pieces_code {digits : Text} {n : Nat} (hcode : IsHexCode digits n)
    (h : pieces rest = some (ps, after)) :
    pieces ('\\' :: 'u' :: (digits ++ rest)) = some (.code n :: ps, after) := by
  have hdigits := hcode
  cases hdigits with
  | mk =>
      show pieces ('\\' :: 'u' :: _ :: _ :: _ :: _ :: rest) = _
      rw [pieces, hexCode?_of_isHexCode hcode, h]
      rfl

end Pieces

/-! ## Putting codes together -/

theorem spell_char (c : Char) (ps : List Piece) :
    spell (.char c :: ps) = (spell ps).map (c :: ·) := by
  rw [spell]

/-- No character has the code of a half of a surrogate pair. -/
theorem not_isHalf (c : Char) : isHighHalf c.toNat = false ∧ isLowHalf c.toNat = false := by
  have hvalid : c.toNat < 0xD800 ∨ 0xDFFF < c.toNat := by
    rcases c.valid with h | ⟨h, -⟩
    · exact Or.inl h
    · exact Or.inr h
  constructor
  · simp only [isHighHalf, Bool.and_eq_false_iff, decide_eq_false_iff_not]
    omega
  · simp only [isLowHalf, Bool.and_eq_false_iff, decide_eq_false_iff_not]
    omega

theorem spell_code (c : Char) (ps : List Piece) :
    spell (.code c.toNat :: ps) = (spell ps).map (c :: ·) := by
  obtain ⟨hhigh, hlow⟩ := not_isHalf c
  cases ps with
  | nil => simp [spell, hhigh, hlow]
  | cons p ps =>
      cases p with
      | char d => simp [spell, hhigh, hlow]
      | code low => rw [spell]; simp [hhigh, hlow]

theorem spell_pair {c : Char} (hc : 0x10000 ≤ c.toNat) (ps : List Piece) :
    spell (.code (highCode c) :: .code (lowCode c) :: ps) = (spell ps).map (c :: ·) := by
  have hbound : c.toNat < 0x110000 := by
    rcases c.valid with h | ⟨-, h⟩
    · have : c.toNat < 0xD800 := h
      omega
    · exact h
  have hhigh : isHighHalf (highCode c) = true := by
    have hlower : 0xD800 ≤ highCode c := Nat.le_add_right _ _
    have hupper : highCode c ≤ 0xDBFF := by
      unfold highCode
      omega
    simp [isHighHalf, hlower, hupper]
  have hlow : isLowHalf (lowCode c) = true := by
    have hlower : 0xDC00 ≤ lowCode c := Nat.le_add_right _ _
    have hupper : lowCode c ≤ 0xDFFF := by
      unfold lowCode
      omega
    simp [isLowHalf, hlower, hupper]
  have hpair : pair (highCode c) (lowCode c) = c := by
    have hsum : 0x10000 + (highCode c - 0xD800) * 0x400 + (lowCode c - 0xDC00) = c.toNat := by
      unfold highCode lowCode
      omega
    unfold pair
    rw [hsum, Char.ofNat_toNat]
  rw [spell, if_pos hhigh, if_pos hlow, hpair]

/-! ## The round trip -/

/-- Every spelling of a text is read as the text. -/
theorem readString_of_spells {body t : Text} (h : Spells body t) (rest : Text) :
    readString (body ++ '\x22' :: rest) = some (t, rest) := by
  have hpieces : ∃ ps, pieces (body ++ '\x22' :: rest) = some (ps, rest) ∧ spell ps = some t := by
    induction h with
    | nil => exact ⟨[], pieces_quote rest, rfl⟩
    | @self c body t hcontrol hquote hback _ ih =>
        obtain ⟨ps, hps, ht⟩ := ih
        refine ⟨.char c :: ps, pieces_self hcontrol hquote hback hps, ?_⟩
        rw [spell_char, ht]
        rfl
    | @letter e c body t he _ ih =>
        obtain ⟨ps, hps, ht⟩ := ih
        refine ⟨.char c :: ps, pieces_letter he hps, ?_⟩
        rw [spell_char, ht]
        rfl
    | @code digits c body t hcode _ ih =>
        obtain ⟨ps, hps, ht⟩ := ih
        refine ⟨.code c.toNat :: ps, ?_, ?_⟩
        · simpa using pieces_code hcode hps
        · rw [spell_code, ht]
          rfl
    | @pair high low c body t hc hhigh hlow _ ih =>
        obtain ⟨ps, hps, ht⟩ := ih
        refine ⟨.code (highCode c) :: .code (lowCode c) :: ps, ?_, ?_⟩
        · simpa using pieces_code hhigh (pieces_code hlow hps)
        · rw [spell_pair hc, ht]
          rfl
  obtain ⟨ps, hps, ht⟩ := hpieces
  simp [readString, hps, ht]

/-! ## A writer -/

/-- The character in a string: as itself where that is allowed. -/
def writtenChar (c : Char) : Text :=
  if c = '\x22' ∨ c = '\\' then ['\\', c]
  else if c.toNat < 0x20 then
    ['\\', 'u', '0', '0', Nat.digitChar (c.toNat / 16), Nat.digitChar (c.toNat % 16)]
  else [c]

/-- The text between the quotes of a JSON string. -/
def written (t : Text) : Text :=
  t.flatMap writtenChar

/-- Every text has a spelling. -/
theorem spells_written (t : Text) : Spells (written t) t := by
  induction t with
  | nil => exact .nil
  | cons c t ih =>
      show Spells (writtenChar c ++ written t) (c :: t)
      unfold writtenChar
      split
      · rename_i hc
        refine .letter ?_ ih
        rcases hc with rfl | rfl <;> decide
      · rename_i hc
        obtain ⟨hquote, hback⟩ := not_or.1 hc
        split
        · rename_i hcontrol
          have hzero : IsHexDigit '0' 0 := ⟨by decide, Or.inl rfl⟩
          have hsixteens : IsHexDigit (Nat.digitChar (c.toNat / 16)) (c.toNat / 16) :=
            ⟨by omega, Or.inl rfl⟩
          have hones : IsHexDigit (Nat.digitChar (c.toNat % 16)) (c.toNat % 16) :=
            ⟨by omega, Or.inl rfl⟩
          have hcode := IsHexCode.mk hzero hzero hsixteens hones
          have hvalue : 0 * 0x1000 + 0 * 0x100 + c.toNat / 16 * 0x10 + c.toNat % 16 = c.toNat := by
            omega
          rw [hvalue] at hcode
          exact .code hcode ih
        · rename_i hcontrol
          exact .self (by omega) hquote hback ih

/-! ## An object with one member -/

/-- The object with the one member `key` that holds the string `name`, in any layout and
any spelling. -/
inductive IsOneMember (key name : Text) : Text → Prop
  | mk {a b c d keyBody nameBody : Text} (ha : ∀ x ∈ a, isBlank x = true)
      (hkey : Spells keyBody key) (hb : ∀ x ∈ b, isBlank x = true)
      (hc : ∀ x ∈ c, isBlank x = true) (hname : Spells nameBody name)
      (hd : ∀ x ∈ d, isBlank x = true) :
      IsOneMember key name ('\x7b' :: (a ++ '\x22' :: (keyBody ++ '\x22' :: (b ++ ':' ::
        (c ++ '\x22' :: (nameBody ++ '\x22' :: (d ++ ['\x7d'])))))))

/-- The object with one member, written without blanks. -/
def writtenObject (key name : Text) : Text :=
  '\x7b' :: '\x22' :: (written key ++ '\x22' :: ':' :: '\x22' :: (written name ++ ['\x22', '\x7d']))

theorem isOneMember_writtenObject (key name : Text) :
    IsOneMember key name (writtenObject key name) :=
  .mk (a := []) (b := []) (c := []) (d := []) (by simp) (spells_written key) (by simp) (by simp)
    (spells_written name) (by simp)

theorem skipBlanks_append {a t : Text} (ha : ∀ x ∈ a, isBlank x = true) :
    skipBlanks (a ++ t) = skipBlanks t :=
  List.dropWhile_append_of_pos ha

theorem skipBlanks_cons {c : Char} (hc : isBlank c = false) (t : Text) :
    skipBlanks (c :: t) = c :: t := by
  simp [skipBlanks, hc]

/-- A string is read where a value is expected. -/
theorem readValue_of_spells {body t : Text} (h : Spells body t) (depth : Nat) (rest : Text) :
    readValue depth ('\x22' :: (body ++ '\x22' :: rest)) = some (.string t, rest) := by
  rw [readValue.eq_def]
  simp only [readString_of_spells h, Option.map_some]

section Members

variable {α : Type} {item : Text → Option (α × Text)} {close : Char}

theorem members_close (hclose : isBlank close = false) {a : Text} (ha : ∀ x ∈ a, isBlank x = true)
    (fuel : Nat) (isFirst : Bool) (rest : Text) :
    members close item (fuel + 1) isFirst (a ++ close :: rest) = some ([], rest) := by
  rw [members, skipBlanks_append ha, skipBlanks_cons hclose]
  simp

theorem members_first {c : Char} (hc : isBlank c = false) (hne : c ≠ close) {a t : Text}
    (ha : ∀ x ∈ a, isBlank x = true) {fuel : Nat} {x : α} {xs : List α} {after last : Text}
    (hx : item (c :: t) = some (x, after))
    (hxs : members close item fuel false after = some (xs, last)) :
    members close item (fuel + 1) true (a ++ c :: t) = some (x :: xs, last) := by
  rw [members, skipBlanks_append ha, skipBlanks_cons hc]
  simp [hne, skipBlanks_cons hc, hx, hxs]

end Members

/-- An object with one member is read as that. -/
theorem read_of_isOneMember {key name object : Text} (h : IsOneMember key name object) :
    read object = some (.object [(key, .string name)]) := by
  obtain ⟨ha, hkey, hb, hc, hname, hd⟩ := h
  rename_i a b c d keyBody nameBody
  have hquote : isBlank '\x22' = false := by decide
  have hcolon : isBlank ':' = false := by decide
  have hclose : isBlank '\x7d' = false := by decide
  -- the member, from its opening quote to the closing brace
  generalize htail : '\x22' :: (keyBody ++ '\x22' :: (b ++ ':' ::
    (c ++ '\x22' :: (nameBody ++ '\x22' :: (d ++ ['\x7d']))))) = tail
  have hmember : ∀ depth, member (readValue depth) tail =
      some ((key, .string name), d ++ ['\x7d']) := by
    intro depth
    rw [← htail]
    simp only [member, readString_of_spells hkey, bind, Option.bind_some, skipBlanks_append hb,
      skipBlanks_append hc, skipBlanks_cons hcolon, skipBlanks_cons hquote,
      readValue_of_spells hname]
  have hmembers : ∀ depth fuel, members '\x7d' (member (readValue depth)) (fuel + 2) true
      (a ++ tail) = some ([(key, .string name)], []) := by
    intro depth fuel
    have hread := hmember depth
    rw [← htail] at hread ⊢
    exact members_first hquote (by decide) ha hread (members_close hclose hd fuel false [])
  obtain ⟨fuel, hfuel⟩ : ∃ fuel, (a ++ tail).length + 1 = fuel + 2 := by
    refine ⟨(a ++ tail).length - 1, ?_⟩
    have : 0 < tail.length := by simp [← htail]
    rw [List.length_append]
    omega
  have hdepth : deepest = 126 + 1 := rfl
  unfold read
  rw [skipBlanks_cons (by decide), readValue.eq_def, hdepth]
  simp only [hfuel, hmembers, Option.map_some]
  rfl

end SetterReport.Json
