import SetterReport.Yaml.Lexer

/-!
# Scalars on one line

A scalar that does not go over a line end is written plain, if its text allows that, or else
between single quotes with every quote in it written twice.  Read back it has the text that was
written, and the cursor stands behind it: at the colon if the scalar is a key, and otherwise,
as a plain scalar could go on, at the next character that is no blank, which stands on a line
of its own and not as deep as the scalar would have to.
-/

namespace SetterReport.Yaml

/-! ## Spelling -/

/-- A run of spaces. -/
def spaces (n : Nat) : Text :=
  List.replicate n ' '

/-- A line end and the indentation of the next line. -/
def lineBreak (column : Nat) : Text :=
  '\n' :: spaces column

/-- Whether a text can be the rest of a plain scalar on one line. -/
def continuesPlain : (afterBlank : Bool) → Text → Bool
  | afterBlank, [] => !afterBlank
  | afterBlank, c :: rest =>
    isAllowed c && !isBreak c &&
      if isBlank c then continuesPlain true rest
      else !(afterBlank && c == '#') && !(c == ':' && blankNext rest) && continuesPlain false rest

/-- Whether a text is a plain scalar on one line, outside brackets. -/
def isPlainToken : Text → Bool
  | [] => false
  | c :: rest =>
    (!LexState.isIndicator c || ("-?:".toList.contains c && !blankNext rest)) && !isBlank c &&
      continuesPlain false (c :: rest)

/-- What may stand behind a block: the end of its last line, and then either nothing, or a
line that starts at some column. -/
inductive Follows : Text → Option Nat → Text → Prop
  | finish : Follows ['\n'] none []
  | line (column : Nat) {c : Char} {rest : Text} (hblank : isBlank c = false)
      (hbreak : isBreak c = false) (hcomment : c ≠ '#') (hmark : c = byteOrderMark → 0 < column) :
      Follows (lineBreak column ++ c :: rest) (some column) (c :: rest)

/-- The position at the start of what follows, seen from the end of the line before. -/
def Mark.atNext (m : Mark) (column : Option Nat) : Mark :=
  m.nextLine.advance (column.getD 0)

theorem Mark.next_advance (m : Mark) (n : Nat) : m.next.advance n = m.advance (n + 1) := by
  simp only [Mark.next, Mark.advance, Mark.mk.injEq, true_and]
  omega

@[simp]
theorem Mark.advance_zero (m : Mark) : m.advance 0 = m :=
  rfl

/-! ## Plain scalars -/

/-- In a plain scalar, blanks and then characters are read on to the end of what can follow.
A scalar with blanks in it has come as far as its lines must be indented. -/
theorem scanPlainFrom_continues {indent : Nat} (t rest read blanks : Text) {m : Mark}
    (hcontinues : continuesPlain (!blanks.isEmpty) t = true) (hcolumn : indent ≤ m.column + 1)
    (hgap : blanks ≠ [] → indent ≤ m.column ∧ 0 < m.column) :
    scanPlainFrom false indent read ⟨blanks, false, none, []⟩ m (t ++ rest) =
      scanPlainFrom false indent (t.reverse ++ (blanks.reverse ++ read)) {} (m.advance t.length)
        rest := by
  induction t generalizing read blanks m with
  | nil =>
      have hnone : blanks = [] := by simpa [continuesPlain] using hcontinues
      rw [hnone]
      rfl
  | cons c t ih =>
      rw [continuesPlain] at hcontinues
      simp only [Bool.and_eq_true, Bool.not_eq_true'] at hcontinues
      obtain ⟨⟨-, hbreak⟩, hrest⟩ := hcontinues
      have hcolumnNext : indent ≤ m.next.column ∧ 0 < m.next.column := by
        simp only [Mark.next]
        omega
      rw [List.cons_append, scanPlainFrom, List.length_cons, ← Mark.next_advance]
      simp only [hbreak, Bool.false_eq_true, if_false]
      by_cases hblank : isBlank c = true
      · rw [if_pos hblank] at hrest
        have hadd : (⟨blanks, false, none, []⟩ : Gap).addBlank c =
          ⟨blanks ++ [c], false, none, []⟩ := rfl
        have hnonempty : (!(blanks ++ [c]).isEmpty) = true := by simp
        have hnext := ih read (blanks ++ [c]) (hnonempty ▸ hrest) (by omega)
          (fun _ => hcolumnNext)
        simp only [hblank, if_true, Bool.false_and, Bool.false_eq_true, if_false, hadd, hnext]
        simp
      · rw [if_neg hblank] at hrest
        simp only [Bool.and_eq_true, Bool.not_eq_true'] at hrest
        obtain ⟨⟨hcomment, hcolon⟩, hrest⟩ := hrest
        have hstays : (!(⟨blanks, false, none, []⟩ : Gap).isNone &&
            ((!false && decide (m.column < indent)) ||
              (m.column == 0 && isDocumentMark (c :: (t ++ rest))) || c == '#')) = false := by
          by_cases hempty : blanks = []
          · simp [hempty, Gap.isNone]
          · obtain ⟨hdeep, hpositive⟩ := hgap hempty
            have hnotComment : (c == '#') = false := by simpa [hempty] using hcomment
            have hfar : decide (m.column < indent) = false := by simpa using hdeep
            have hinside : (m.column == 0) = false := by simpa using Nat.ne_of_gt hpositive
            simp [hfar, hinside, hnotComment]
        have hgoes : endsPlain false c (t ++ rest) = false := by
          cases t with
          | nil =>
              have hother : (c == ':') = false := by simpa [blankNext] using hcolon
              simp [endsPlain, hother]
          | cons d t => simpa [endsPlain, blankNext] using hcolon
        have hfold : (⟨blanks, false, none, []⟩ : Gap).fold = blanks := rfl
        have hnext := ih (m := m.next) (c :: (blanks.reverse ++ read)) [] hrest (by omega) (by simp)
        simp only [hblank, hstays, hgoes, hfold, isStrayColon, Bool.false_and, Bool.false_eq_true,
          if_false, hnext]
        simp

theorem scanPlainFrom_spaces {indent : Nat} (n : Nat) (rest read : Text) {g : Gap}
    (hbroken : g.isBroken = true) (m : Mark) :
    scanPlainFrom false indent read g m (spaces n ++ rest) =
      scanPlainFrom false indent read g (m.advance n) rest := by
  induction n generalizing m with
  | zero => rfl
  | succ n ih =>
      have hadd : g.addBlank ' ' = g := by simp [Gap.addBlank, hbroken]
      have hbreak : isBreak ' ' = false := by decide
      have hblank : isBlank ' ' = true := by decide
      have htab : (' ' == '\t') = false := by decide
      show scanPlainFrom false indent read g m (' ' :: (spaces n ++ rest)) = _
      rw [scanPlainFrom, ← Mark.next_advance, ← ih m.next]
      simp only [hbreak, hblank, htab, hadd, Bool.and_false, Bool.false_eq_true, if_false, if_true]

/-- Behind a plain scalar at the end of a line, the reader goes on to what follows. -/
theorem scanPlainFrom_follows {indent : Nat} {tail w : Text} {column : Option Nat}
    (hfollows : Follows tail column w) (hcolumn : ∀ k ∈ column, k < indent) (read : Text)
    (m : Mark) :
    scanPlainFrom false indent read {} m tail =
      some ⟨read.reverse, true, ⟨m.atNext column, w⟩⟩ := by
  have hbreakLine : isBreak '\n' = true := by decide
  cases hfollows with
  | finish => simp [scanPlainFrom, hbreakLine, Gap.addBreak, Mark.atNext]
  | line k hblank hbreak hcomment hmark =>
      rename_i c rest
      have hshallow : k < indent := hcolumn k rfl
      rw [lineBreak, List.cons_append, scanPlainFrom, if_pos hbreakLine,
        scanPlainFrom_spaces k _ _ rfl, scanPlainFrom]
      have hends : ((m.nextLine.advance k).column < indent) := by
        simpa [Mark.nextLine, Mark.advance] using hshallow
      simp [hbreak, hblank, hends, Gap.addBreak, Gap.isNone, Mark.atNext]

theorem continuesPlain_of_isPlainToken {t : Text} (h : isPlainToken t = true) :
    continuesPlain false t = true := by
  cases t with
  | nil => simp [isPlainToken] at h
  | cons c rest =>
      simp only [isPlainToken, Bool.and_eq_true] at h
      exact h.2

/-- A plain scalar at the end of a line is read as its text. -/
theorem scanPlain_line {indent : Nat} {t tail w : Text} {column : Option Nat}
    (htoken : isPlainToken t = true) (hfollows : Follows tail column w)
    (hcolumn : ∀ k ∈ column, k < indent) {m : Mark} (hindent : indent ≤ m.column + 1) :
    scanPlain false indent ⟨m, t ++ tail⟩ =
      some ⟨t, true, ⟨(m.advance t.length).atNext column, w⟩⟩ := by
  have hcontinues : continuesPlain (!([] : Text).isEmpty) t = true :=
    continuesPlain_of_isPlainToken htoken
  unfold scanPlain
  rw [scanPlainFrom_continues t tail [] [] hcontinues hindent (by simp),
    scanPlainFrom_follows hfollows hcolumn]
  simp

/-- A plain scalar before a colon that ends it is read as its text. -/
theorem scanPlain_key {indent : Nat} {t rest : Text} (htoken : isPlainToken t = true)
    (hrest : blankNext rest = true) {m : Mark} (hindent : indent ≤ m.column + 1) :
    scanPlain false indent ⟨m, t ++ ':' :: rest⟩ =
      some ⟨t, false, ⟨m.advance t.length, ':' :: rest⟩⟩ := by
  have hcontinues : continuesPlain (!([] : Text).isEmpty) t = true :=
    continuesPlain_of_isPlainToken htoken
  have hbreak : isBreak ':' = false := by decide
  have hblank : isBlank ':' = false := by decide
  unfold scanPlain
  rw [scanPlainFrom_continues t _ [] [] hcontinues hindent (by simp), scanPlainFrom]
  simp [hbreak, hblank, hrest, Gap.isNone, isStrayColon, endsPlain]

/-! ## Quoted scalars -/

/-- A text with every single quote in it written twice. -/
def doubleQuotes (t : Text) : Text :=
  t.flatMap fun c => if c = '\x27' then ['\x27', '\x27'] else [c]

/-- Whether a text can stand between quotes on one line. -/
def isQuotable (t : Text) : Bool :=
  t.all fun c => isAllowed c && !isBreak c

theorem isQuotable_of_continuesPlain {afterBlank : Bool} {t : Text}
    (h : continuesPlain afterBlank t = true) : isQuotable t = true := by
  induction t generalizing afterBlank with
  | nil => rfl
  | cons c t ih =>
      rw [continuesPlain] at h
      obtain ⟨hhere, hrest⟩ := Bool.and_eq_true_iff.1 h
      have hquotable : isQuotable t = true := by
        split at hrest
        · exact ih hrest
        · exact ih (Bool.and_eq_true_iff.1 hrest).2
      rw [isQuotable, List.all_cons, hhere]
      exact hquotable

/-- A plain scalar can also be quoted. -/
theorem isQuotable_of_isPlainToken {t : Text} (h : isPlainToken t = true) : isQuotable t = true :=
  isQuotable_of_continuesPlain (continuesPlain_of_isPlainToken h)

/-- Between single quotes, a text with doubled quotes is read to the quote that ends it. -/
theorem scanQuotedFrom_doubleQuotes (t rest read blanks : Text) {m : Mark}
    (ht : isQuotable t = true) (hrest : rest.head? ≠ some '\x27') (hcolumn : 0 < m.column) :
    scanQuotedFrom .single .ordinary read ⟨blanks, false, none, []⟩ m
        (doubleQuotes t ++ '\x27' :: rest) =
      some ⟨read.reverse ++ (blanks ++ t), false, ⟨m.advance ((doubleQuotes t).length + 1), rest⟩⟩ := by
  have hquoteBreak : isBreak '\x27' = false := by decide
  have hquoteBlank : isBlank '\x27' = false := by decide
  have hchar : Quotes.single.char = '\x27' := rfl
  have hfold : ∀ blanks : Text, (⟨blanks, false, none, []⟩ : Gap).fold = blanks := fun _ => rfl
  induction t generalizing read blanks m with
  | nil =>
      have hinside : (m.column == 0) = false := by simpa using Nat.ne_of_gt hcolumn
      have hends : (rest.head? == some '\x27') = false := by simpa using hrest
      show scanQuotedFrom .single .ordinary read ⟨blanks, false, none, []⟩ m ('\x27' :: rest) = _
      rw [scanQuotedFrom]
      simp [hinside, hquoteBreak, hquoteBlank, hfold, hchar, hends, doubleQuotes, Mark.advance,
        Mark.next]
  | cons c t ih =>
      have hinside : (m.column == 0) = false := by simpa using Nat.ne_of_gt hcolumn
      simp only [isQuotable, List.all_cons, Bool.and_eq_true, Bool.not_eq_true'] at ht
      obtain ⟨⟨-, hbreak⟩, ht⟩ := ht
      have hcolumnNext : 0 < m.next.column := Nat.succ_pos _
      by_cases hquote : c = '\x27'
      · subst hquote
        have hdouble : doubleQuotes ('\x27' :: t) = '\x27' :: '\x27' :: doubleQuotes t := rfl
        have hagain : ((('\x27' : Char) :: (doubleQuotes t ++ '\x27' :: rest)).head? ==
          some '\x27') = true := rfl
        have hnext := ih (m := m.next.next) ('\x27' :: (blanks.reverse ++ read)) [] ht
          (Nat.succ_pos _)
        rw [hdouble, List.cons_append, List.cons_append, scanQuotedFrom, List.length_cons,
          List.length_cons, Nat.add_right_comm, Nat.add_right_comm _ 1 1, ← Mark.next_advance,
          ← Mark.next_advance]
        simp only [hinside, hquoteBreak, hquoteBlank, hfold, hchar, hagain, Bool.false_and,
          Bool.false_eq_true, if_false, beq_self_eq_true, if_true, decide_true, Bool.and_self,
          scanQuotedFrom]
        rw [hnext]
        simp
      · have hdouble : doubleQuotes (c :: t) = c :: doubleQuotes t := by
          simp [doubleQuotes, hquote]
        rw [hdouble, List.cons_append, scanQuotedFrom, List.length_cons, Nat.add_right_comm,
          ← Mark.next_advance]
        by_cases hblank : isBlank c = true
        · have hadd : (⟨blanks, false, none, []⟩ : Gap).addBlank c =
            ⟨blanks ++ [c], false, none, []⟩ := rfl
          have hnext := ih (m := m.next) read (blanks ++ [c]) ht hcolumnNext
          simp only [hinside, hbreak, hblank, hadd, Bool.false_and, Bool.false_eq_true, if_false,
            if_true]
          rw [hnext]
          simp
        · have hother : (c == Quotes.single.char) = false := by simpa [hchar] using hquote
          have hsingle : (decide (Quotes.single = Quotes.double)) = false := by decide
          have hnext := ih (m := m.next) (c :: (blanks.reverse ++ read)) [] ht hcolumnNext
          simp only [hinside, hbreak, hblank, hfold, hother, hsingle, Bool.false_and,
            Bool.false_eq_true, if_false]
          rw [hnext]
          simp

/-! ## Scalars as they are written -/

/-- A scalar on one line: plain, or between single quotes. -/
inductive Spelling
  | plain (t : Text)
  | quoted (t : Text)

namespace Spelling

/-- The text that is meant. -/
def content : Spelling → Text
  | plain t => t
  | quoted t => t

/-- The text that is written. -/
def text : Spelling → Text
  | plain t => t
  | quoted t => '\x27' :: (doubleQuotes t ++ ['\x27'])

/-- Whether the text can be written this way. -/
def isWritable : Spelling → Bool
  | plain t => isPlainToken t
  | quoted t => isQuotable t

/-- Whether the text is written plain. -/
def isPlain : Spelling → Bool
  | plain _ => true
  | quoted _ => false

/-- The token of the scalar. -/
def token (s : Spelling) : Token :=
  .scalar s.content s.isPlain

end Spelling

end SetterReport.Yaml
