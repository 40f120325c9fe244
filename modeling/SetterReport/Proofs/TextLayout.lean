import Mathlib.Data.List.DropRight
import SetterReport.Text.Width

/-!
# How printable text is laid out

Text of printable ASCII characters holds no control sequence and no character that is
drawn together with another one, so it is as wide as it is long.  Its only blank is
the space, so that trimming its end takes spaces away and nothing else.

Lines that are written one after the other, each ended, are the lines that are read
(`lines_ended`).
-/

namespace SetterReport.Text

/-! ## Printable characters -/

/-- The characters of printable ASCII. -/
def IsShown (c : Char) : Prop := 0x20 ≤ c.toNat ∧ c.toNat ≤ 0x7E

instance : DecidablePred IsShown := fun c =>
  inferInstanceAs (Decidable (0x20 ≤ c.toNat ∧ c.toNat ≤ 0x7E))

theorem IsShown.ne {c d : Char} (hc : IsShown c) (hd : ¬IsShown d) : c ≠ d := by
  rintro rfl
  exact hd hc

theorem IsShown.eq_space {c : Char} (hc : IsShown c) (hblank : isBlank c = true) : c = ' ' := by
  obtain ⟨hlow, hhigh⟩ := hc
  have hcode : c.toNat = ' '.toNat := by
    simp only [isBlank, Bool.or_eq_true, Bool.and_eq_true, decide_eq_true_eq, beq_iff_eq] at hblank
    show c.toNat = 0x20
    omega
  exact Char.toNat_inj.1 hcode

section Shown

variable {t : Text}

theorem strip_of_shown (h : ∀ c ∈ t, IsShown c) : Terminal.strip t = t := by
  unfold Terminal.strip
  induction t with
  | nil => rfl
  | cons c t ih =>
      have hc : IsShown c := h c (by simp)
      have hopens : Terminal.opens c = false := by
        simp [Terminal.opens, hc.ne (d := '\x1b') (by decide), hc.ne (d := '\u009b') (by decide)]
      rw [Terminal.stripFrom, if_neg (by simp [hopens]), ih fun d hd => h d (by simp [hd])]

/-- Nothing of note follows a printable character, and it takes one column. -/
theorem measureAll_of_shown (h : ∀ c ∈ t, IsShown c) :
    measureAll t = ((t.length : Int), .none) := by
  induction t with
  | nil => rfl
  | cons c t ih =>
      have hc : IsShown c := h c (by simp)
      have hlater := ih fun d hd => h d (by simp [hd])
      have hone : measure c .none = (1, .none) := by
        have hcode : c.toNat ≤ 0xA0 := le_trans hc.2 (by decide)
        simp [measure, Following.none, hcode, hc.ne (d := '\n') (by decide),
          hc.ne (d := '\r') (by decide)]
      rw [measureAll, hlater]
      simp only [hone, List.length_cons, Int.natCast_add, Int.natCast_one]
      rw [Int.add_comm]

theorem width_of_shown (h : ∀ c ∈ t, IsShown c) : width t = t.length := by
  unfold width
  rw [strip_of_shown h, measureAll_of_shown h]
  rfl

theorem padTo_of_shown (h : ∀ c ∈ t, IsShown c) (w : Nat) :
    padTo w t = t ++ copies (w - t.length) ' ' := by
  rw [padTo, width_of_shown h]

end Shown

theorem eq_space_of_mem_copies {n : Nat} {c : Char} (h : c ∈ copies n ' ') : c = ' ' :=
  List.eq_of_mem_replicate h

/-! ## Trailing spaces -/

/-- The text without its trailing spaces. -/
def trimSpaces (t : Text) : Text :=
  t.rdropWhile (· == ' ')

theorem trimSpaces_append_spaces (t : Text) {s : Text} (hs : ∀ c ∈ s, c = ' ') :
    trimSpaces (t ++ s) = trimSpaces t := by
  unfold trimSpaces List.rdropWhile
  rw [List.reverse_append, List.dropWhile_append_of_pos]
  intro c hc
  simpa using hs c (by simpa using hc)

/-- Padding is nothing but trailing spaces. -/
theorem trimSpaces_padTo_append (w : Nat) (t : Text) {s : Text} (hs : ∀ c ∈ s, c = ' ') :
    trimSpaces (padTo w t ++ s) = trimSpaces t := by
  rw [trimSpaces_append_spaces _ hs, padTo]
  exact trimSpaces_append_spaces _ fun c hc => eq_space_of_mem_copies hc

/-- Spaces end at a character that is none. -/
theorem trimSpaces_append_cons (a : Text) {c : Char} (hc : c ≠ ' ') (b : Text) :
    trimSpaces (a ++ c :: b) = a ++ c :: trimSpaces b := by
  induction b using List.reverseRecOn with
  | nil =>
      unfold trimSpaces
      rw [List.rdropWhile_concat_neg _ _ _ (by simpa using hc), List.rdropWhile_nil]
  | append_singleton b d ih =>
      by_cases hd : d = ' '
      · have hspace : ∀ x ∈ [d], x = ' ' := by simpa using hd
        rw [← List.cons_append, ← List.append_assoc, trimSpaces_append_spaces _ hspace,
          trimSpaces_append_spaces _ hspace, ih]
      · have hkeep : ∀ t : Text, trimSpaces (t ++ [d]) = t ++ [d] := fun t =>
          List.rdropWhile_concat_neg _ _ _ (by simpa using hd)
        rw [← List.cons_append, ← List.append_assoc, hkeep, hkeep]
        simp

/-- Trimming the end of printable text takes spaces away. -/
theorem exists_trimEnd {t : Text} (h : ∀ c ∈ t, IsShown c) :
    ∃ s, t = trimEnd t ++ s ∧ ∀ c ∈ s, c = ' ' := by
  have hsplit : trimEnd t ++ t.rtakeWhile isBlank = t := List.rdropWhile_append_rtakeWhile
  refine ⟨t.rtakeWhile isBlank, hsplit.symm, ?_⟩
  intro c hc
  have hblank : isBlank c = true := List.mem_rtakeWhile_imp hc
  refine (h c ?_).eq_space hblank
  rw [← hsplit]
  exact List.mem_append_right _ hc

/-! ## Lines -/

/-- Whether a text is free of characters that end lines. -/
def IsOneLine (t : Text) : Prop := ∀ c ∈ t, c ≠ '\n' ∧ c ≠ '\r'

/-- A text that can be a line: no line feed is in it, and no carriage return is at its
end, where it would belong to the line ending. -/
def IsLine (t : Text) : Prop := '\n' ∉ t ∧ t.getLast? ≠ some '\r'

theorem IsOneLine.isLine {t : Text} (h : IsOneLine t) : IsLine t :=
  ⟨fun hc => (h _ hc).1 rfl, fun hc => (h _ (List.mem_of_getLast? hc)).2 rfl⟩

/-- A character that opens no line ending stands on the first line. -/
theorem lines_cons_of_head {c : Char} (hc : c ≠ '\n') {t : Text}
    (hnext : c = '\r' → t.head? ≠ some '\n') : lines (c :: t) = onFirstLine c (lines t) := by
  rw [lines]
  · exact fun h => hc h
  · rintro rest rfl rfl
    exact hnext rfl rfl

theorem lines_cons {c : Char} (hc : c ≠ '\n' ∧ c ≠ '\r') (t : Text) :
    lines (c :: t) = onFirstLine c (lines t) :=
  lines_cons_of_head hc.1 fun h => absurd h hc.2

theorem IsLine.tail {c : Char} {t : Text} (h : IsLine (c :: t)) : IsLine t := by
  refine ⟨fun hmem => h.1 (List.mem_cons_of_mem _ hmem), fun hlast => h.2 ?_⟩
  rw [List.getLast?_cons, hlast]
  rfl

/-- A carriage return in a line has a character after it, which is no line feed. -/
theorem IsLine.head?_append_ne {t : Text} (h : IsLine ('\r' :: t)) (rest : Text) :
    (t ++ rest).head? ≠ some '\n' := by
  cases t with
  | nil => exact absurd rfl h.2
  | cons d t =>
      intro hd
      obtain rfl : d = '\n' := by simpa using hd
      exact h.1 (by simp)

theorem lines_append_newline {line : Text} (h : IsLine line) (rest : Text) :
    lines (line ++ '\n' :: rest) = line :: lines rest := by
  induction line with
  | nil => rw [List.nil_append, lines]
  | cons c line ih =>
      have hc : c ≠ '\n' := fun hc => h.1 (by simp [hc])
      have hnext : c = '\r' → (line ++ '\n' :: rest).head? ≠ some '\n' := by
        rintro rfl
        exact h.head?_append_ne _
      rw [List.cons_append, lines_cons_of_head hc hnext, ih h.tail]
      rfl

theorem lines_of_isOneLine {t : Text} (h : IsOneLine t) (hne : t ≠ []) : lines t = [t] := by
  induction t with
  | nil => exact absurd rfl hne
  | cons c t ih =>
      rw [lines_cons (h c (by simp))]
      by_cases ht : t = []
      · rw [ht]
        rfl
      · rw [ih (fun d hd => h d (by simp [hd])) ht]
        rfl

theorem lines_ne_nil {t : Text} (hne : t ≠ []) : lines t ≠ [] := by
  fun_cases lines t with
  | case1 => exact absurd rfl hne
  | case2 => simp
  | case3 => simp
  | case4 c rest => cases lines rest <;> simp [onFirstLine]

theorem join_onFirstLine (sep : Text) (c : Char) (ls : List Text) :
    join sep (onFirstLine c ls) = c :: join sep ls := by
  unfold join
  cases ls with
  | nil => rfl
  | cons line ls => cases ls <;> rfl

/-- An empty line in front adds a separator, or nothing if no line follows. -/
theorem join_nil_cons (sep : Text) (ls : List Text) :
    join sep ([] :: ls) = if ls = [] then [] else sep ++ join sep ls := by
  unfold join
  split
  · rename_i hnil
    rw [hnil]
    rfl
  · rename_i hne
    rw [List.intercalate_cons_of_ne_nil hne]
    rfl

/-- The text of lines that are each ended. -/
def ended (ls : List Text) : Text :=
  ls.flatMap (· ++ ['\n'])

theorem lines_ended {ls : List Text} (h : ∀ line ∈ ls, IsLine line) : lines (ended ls) = ls := by
  induction ls with
  | nil => rfl
  | cons line ls ih =>
      show lines (line ++ ['\n'] ++ ended ls) = line :: ls
      rw [List.append_assoc, List.singleton_append, lines_append_newline (h line (by simp)),
        ih fun l hl => h l (by simp [hl])]

/-- The characters of a line are those of the text, less the line feeds. -/
theorem of_mem_lines {t line : Text} {c : Char} (hline : line ∈ lines t) (hc : c ∈ line) :
    c ∈ t ∧ c ≠ '\n' := by
  fun_induction lines t generalizing line with
  | case1 => simp at hline
  | case2 rest ih =>
      rcases List.mem_cons.1 hline with rfl | hline
      · simp at hc
      · have hlater := ih hline hc
        simp [hlater]
  | case3 rest ih =>
      rcases List.mem_cons.1 hline with rfl | hline
      · simp at hc
      · have hlater := ih hline hc
        simp [hlater]
  | case4 d rest hnewline _ ih =>
      have hd : d ≠ '\n' := fun h => hnewline h
      have hlater : ∀ l ∈ lines rest, c ∈ l → c ∈ d :: rest ∧ c ≠ '\n' := by
        intro l hl hcl
        have := ih hl hcl
        simp [this]
      -- the first line got one more character at its front
      cases hrest : lines rest with
      | nil =>
          obtain rfl : line = [d] := by simpa [hrest, onFirstLine] using hline
          obtain rfl : c = d := by simpa using hc
          exact ⟨by simp, hd⟩
      | cons first others =>
          rw [hrest] at hline hlater
          rcases List.mem_cons.1 hline with rfl | hother
          · rcases List.mem_cons.1 hc with rfl | hc
            · exact ⟨by simp, hd⟩
            · exact hlater first (by simp) hc
          · exact hlater line (by simp [hother]) hc

end SetterReport.Text
