import SetterReport.Text.Width

/-!
# Widths that add up

A text is measured from its end, after its control sequences have been taken out, and
a character can change the width of what stands before it.  So the width of two texts
one after the other is in general not the sum of their widths.

It is where a character *stands alone* between them: one that no control sequence goes
on with, and that nothing is drawn together with.  Spaces, bars and dashes are such
characters.  No control sequence reaches across one (`strip_append_cons`), and before
one the measuring starts afresh (`measureAll_append_cons`).

A width is a sum of integers, since a sign may take back a column that was counted
behind it.  What is taken back is always there (`least_le_measureAll`), so that the sum
is never negative and the widths add up as natural numbers (`addsUpAt_width`).

Whoever lays out columns needs to know no more than that: what follows from it holds in
any measure that adds up (`AddsUpAt`).
-/

namespace SetterReport.Text

/-! ## Characters that stand alone -/

/-- A character that takes one column wherever it stands, and that is in no control
sequence. -/
structure StandsAlone (c : Char) : Prop where
  opens_eq : Terminal.opens c = false
  after_eq : ∀ p : Terminal.Progress, p.after c = none
  measure_eq : ∀ next, measure c next = (1, .none)

/-- Up to U+00A0 only the line endings and the characters of keycaps have a group. -/
theorem measure_eq_one {c : Char} (hcode : c.toNat ≤ 0xA0) (hline : c ≠ '\n' ∧ c ≠ '\r')
    (hbase : Unicode.emojiVariationBase.holds c.toNat = false) (next : Following) :
    measure c next = (1, .none) := by
  have hyields : yieldsToText c.toNat = false := by
    simp [yieldsToText, hbase]
  simp [measure, hbase, hyields, hcode, hline.1, hline.2]

theorem standsAlone_space : StandsAlone ' ' where
  opens_eq := by decide
  after_eq p := by cases p <;> rfl
  measure_eq := measure_eq_one (by decide) (by decide) (by decide)

theorem standsAlone_bar : StandsAlone '|' where
  opens_eq := by decide
  after_eq p := by cases p <;> rfl
  measure_eq := measure_eq_one (by decide) (by decide) (by decide)

theorem standsAlone_dash : StandsAlone '-' where
  opens_eq := by decide
  after_eq p := by cases p <;> rfl
  measure_eq := measure_eq_one (by decide) (by decide) (by decide)

/-! ## Control sequences -/

namespace Terminal

theorem longest_le_length (p : Progress) (t : Text) : longest p t ≤ t.length := by
  induction t generalizing p with
  | nil => exact Nat.le_refl 0
  | cons c t ih =>
      cases hstep : p.after c with
      | none => simp [longest, hstep]
      | some q =>
          have hrest := ih q
          cases hlong : longest q t with
          | zero =>
              simp only [longest, hstep, hlong, List.length_cons]
              split <;> omega
          | succ n =>
              simp only [longest, hstep, hlong, List.length_cons]
              omega

/-- A control sequence ends before a character that stands alone. -/
theorem longest_append_cons {c : Char} (hc : StandsAlone c) (p : Progress) (a b : Text) :
    longest p (a ++ c :: b) = longest p a := by
  induction a generalizing p with
  | nil => simp [longest, hc.after_eq]
  | cons d a ih =>
      cases hstep : p.after d with
      | none => simp [longest, hstep]
      | some q => simp only [List.cons_append, longest, hstep, ih q]

theorem stripFrom_append_cons {c : Char} (hc : StandsAlone c) (a b : Text) :
    ∀ skip ≤ a.length, stripFrom skip (a ++ c :: b) = stripFrom skip a ++ c :: stripFrom 0 b := by
  induction a with
  | nil =>
      intro skip hskip
      obtain rfl : skip = 0 := by simpa using hskip
      simp [stripFrom, hc.opens_eq]
  | cons d a ih =>
      intro skip hskip
      cases skip with
      | succ skip =>
          rw [List.cons_append, stripFrom, stripFrom]
          exact ih skip (by simpa using hskip)
      | zero =>
          have hrest := ih 0 (Nat.zero_le _)
          -- what a sequence takes away lies before the character
          have hlong := longest_le_length .opened a
          cases hcount : longest .opened a with
          | zero =>
              simp only [List.cons_append, stripFrom, longest_append_cons hc, hcount, hrest]
              split <;> rfl
          | succ n =>
              have hskipped := ih (n + 1) (by omega)
              simp only [List.cons_append, stripFrom, longest_append_cons hc, hcount, hrest,
                hskipped]
              split <;> rfl

end Terminal

theorem strip_append_cons {c : Char} (hc : StandsAlone c) (a b : Text) :
    Terminal.strip (a ++ c :: b) = Terminal.strip a ++ c :: Terminal.strip b :=
  Terminal.stripFrom_append_cons hc a b 0 (Nat.zero_le _)

/-! ## Columns that are taken back -/

/-- The columns that were counted for what a character is to the one before it, and that
the one before it may take back. -/
def Follower.least : Follower → Int
  | .khmerLetter => 1
  | .joinedFlag false => 1
  | _ => 0

theorem Follower.least_nonneg (f : Follower) : 0 ≤ f.least := by
  unfold Follower.least
  split <;> decide

/-- A Khmer letter that can be written below another one takes a column by itself. -/
theorem one_le_columns_of_khmerLetter {n : Nat} (h : khmerLetters.holds n = true) :
    1 ≤ columns n := by
  have hlow : 0x1780 ≤ n ∧ n ≤ 0x17AF := by
    simp only [Unicode.Ranges.holds, khmerLetters, List.any_cons, List.any_nil, Bool.or_eq_true,
      Bool.and_eq_true, decide_eq_true_eq, Bool.or_false] at h
    omega
  have hall : ∀ k < 0x30, khmerLetters.holds (0x1780 + k) = true → 1 ≤ columns (0x1780 + k) := by
    decide +kernel
  have hsplit : 0x1780 + (n - 0x1780) = n := by omega
  rw [← hsplit] at h ⊢
  exact hall _ (by omega) h

theorem least_followerOf_le (n : Nat) : (followerOf n).least ≤ columns n := by
  by_cases hkhmer : khmerLetters.holds n = true
  · have hone := one_le_columns_of_khmerLetter hkhmer
    have hleast : (followerOf n).least ≤ 1 := by
      unfold Follower.least
      split <;> decide
    omega
  · have hleast : (followerOf n).least = 0 := by
      unfold followerOf
      rw [if_neg hkhmer]
      repeat' split
      all_goals rfl
    omega

/-- A character never takes back more than was counted behind it. -/
theorem least_le_inGroup (n : Nat) (next : Follower) :
    (inGroup n next).2.follower.least ≤ (inGroup n next).1 + next.least := by
  have halone : (followerOf n).least ≤ columns n + next.least := by
    have hself := least_followerOf_le n
    have hnext := next.least_nonneg
    omega
  cases next
  case joinedFlag isEven =>
    -- two letters make one flag: the second one from the end has the columns of both
    cases isEven
    all_goals
      simp only [inGroup, Bool.false_eq_true, reduceIte]
      repeat' split
    all_goals first
      | exact halone
      | decide
  all_goals
    simp only [inGroup]
    repeat' split
  all_goals first
    | exact halone
    | simp [Follower.least, Following.of, Following.none]

theorem least_le_measure (c : Char) (next : Following) :
    (measure c next).2.follower.least ≤ (measure c next).1 + next.follower.least := by
  have hnext := next.follower.least_nonneg
  unfold measure
  dsimp only
  repeat' split
  all_goals first
    | exact least_le_inGroup _ _
    | generalize next.follower.least = counted at hnext ⊢
      simp only [Follower.least, Following.of, Following.none]
      omega

theorem least_le_measureAll (t : Text) : (measureAll t).2.follower.least ≤ (measureAll t).1 := by
  induction t with
  | nil => decide
  | cons c t ih =>
      have hstep := least_le_measure c (measureAll t).2
      show (measure c (measureAll t).2).2.follower.least ≤
        (measure c (measureAll t).2).1 + (measureAll t).1
      omega

theorem measureAll_nonneg (t : Text) : 0 ≤ (measureAll t).1 :=
  Int.le_trans (measureAll t).2.follower.least_nonneg (least_le_measureAll t)

/-! ## The sum of widths -/

/-- Before a character that stands alone the measuring starts afresh. -/
theorem measureAll_append_cons {c : Char} (hc : StandsAlone c) (a b : Text) :
    measureAll (a ++ c :: b) =
      ((measureAll a).1 + (1 + (measureAll b).1), (measureAll a).2) := by
  induction a with
  | nil =>
      rw [List.nil_append, measureAll]
      simp only [hc.measure_eq, measureAll, Int.zero_add]
  | cons d a ih =>
      rw [List.cons_append, measureAll, measureAll, ih]
      simp only [Int.add_assoc]

/-- A measure of texts in which a character takes one column, and what stands on its two sides
adds up. -/
structure AddsUpAt (μ : Text → Nat) (c : Char) : Prop where
  nil_eq : μ [] = 0
  append_cons_eq : ∀ a b, μ (a ++ c :: b) = μ a + 1 + μ b

namespace AddsUpAt

variable {μ : Text → Nat} {c : Char}

theorem cons_eq (h : AddsUpAt μ c) (t : Text) : μ (c :: t) = μ t + 1 := by
  have hsum := h.append_cons_eq [] t
  rw [List.nil_append, h.nil_eq] at hsum
  omega

theorem append_copies_eq (h : AddsUpAt μ c) (t : Text) (n : Nat) :
    μ (t ++ copies n c) = μ t + n := by
  induction n with
  | zero => simp [copies]
  | succ n ih =>
      have hlast : t ++ copies (n + 1) c = (t ++ copies n c) ++ c :: [] := by
        simp [copies, List.replicate_succ']
      rw [hlast, h.append_cons_eq, ih, h.nil_eq]
      omega

/-- The same with a text behind the copies, of which there is at least one. -/
theorem append_copies_append_eq (h : AddsUpAt μ c) (t : Text) (n : Nat) (rest : Text) :
    μ (t ++ copies (n + 1) c ++ rest) = μ t + (n + 1) + μ rest := by
  have hlast : t ++ copies (n + 1) c ++ rest = (t ++ copies n c) ++ c :: rest := by
    simp [copies, List.replicate_succ']
  rw [hlast, h.append_cons_eq, h.append_copies_eq]
  omega

end AddsUpAt

@[simp] theorem width_nil : width [] = 0 := rfl

/-- Widths add up at a character that stands alone. -/
theorem addsUpAt_width {c : Char} (hc : StandsAlone c) : AddsUpAt width c where
  nil_eq := width_nil
  append_cons_eq a b := by
    have ha := measureAll_nonneg (Terminal.strip a)
    have hb := measureAll_nonneg (Terminal.strip b)
    unfold width
    rw [strip_append_cons hc, measureAll_append_cons hc]
    dsimp only
    omega

end SetterReport.Text
