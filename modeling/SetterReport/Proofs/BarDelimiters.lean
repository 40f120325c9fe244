import Mathlib.Algebra.Ring.Parity
import SetterReport.Proofs.TableLines

/-!
# What delimits the cells of a markdown table

A reader of a table goes through a line from left to right.  A backslash makes the
punctuation character behind it literal, and every other bar delimits a cell.  Bars of a
cell are written with a backslash before them, but backslashes are written as they are:
behind an odd number of backslashes the one that is put before a bar is itself made
literal, and the bar delimits.

Whether a backslash is literal is a matter of how many stand before it, so that the line
is read by a machine with one bit of memory (`delimiters_eq`).  Read through an escaped
text that bit is the parity of the backslashes at its end, and the bars that are counted
are the *exposed* ones (`delimitersFrom_escapeBars`).  A space clears the bit, so that the
cells of a row are read one by one.

## Main result

* `delimiters_render` — the delimiters of the lines of a markdown table: one for each
  column, one more, and one for each exposed bar.
-/

namespace SetterReport

namespace Text

/-! ## Reading a line of a table -/

/-- The punctuation characters of ASCII. -/
def isPunctuation (c : Char) : Bool :=
  let n := c.toNat
  (0x21 ≤ n && n ≤ 0x2F) || (0x3A ≤ n && n ≤ 0x40) || (0x5B ≤ n && n ≤ 0x60) ||
    (0x7B ≤ n && n ≤ 0x7E)

/-- The number of bars of a line that delimit cells, when a backslash makes the punctuation
character behind it literal. -/
def delimiters : Text → Nat
  | [] => 0
  | '\\' :: c :: rest => if isPunctuation c then delimiters rest else delimiters (c :: rest)
  | '|' :: rest => delimiters rest + 1
  | _ :: rest => delimiters rest

/-- Whether the character behind `c` is made literal; `escaped` says whether `c` is. -/
def escapesNext (escaped : Bool) (c : Char) : Bool :=
  c == '\\' && !escaped

/-- The number of bars that are not literal. -/
def delimitersFrom : (escaped : Bool) → Text → Nat
  | _, [] => 0
  | escaped, c :: rest =>
    (if c = '|' ∧ escaped = false then 1 else 0) + delimitersFrom (escapesNext escaped c) rest

/-- Whether the character behind a text is made literal. -/
def escapesAfter (escaped : Bool) (t : Text) : Bool :=
  t.foldl escapesNext escaped

/-- Only bars and backslashes are read in another way when they are literal. -/
theorem delimitersFrom_cons_of_ne {c : Char} (hc : c ≠ '|' ∧ c ≠ '\\') (escaped : Bool)
    (t : Text) : delimitersFrom escaped (c :: t) = delimitersFrom false t := by
  have hback : (c == '\\') = false := by simpa using hc.2
  simp [delimitersFrom, escapesNext, hc.1, hback]

theorem delimiters_eq (t : Text) : delimiters t = delimitersFrom false t := by
  fun_induction delimiters t with
  | case1 => rfl
  | case2 c rest hmark ih =>
      rw [ih]
      simp [delimitersFrom, escapesNext]
  | case3 c rest hmark ih =>
      have hbar : c ≠ '|' := by
        rintro rfl
        exact hmark (by decide)
      have hback : c ≠ '\\' := by
        rintro rfl
        exact hmark (by decide)
      have hsecond := delimitersFrom_cons_of_ne ⟨hbar, hback⟩
      rw [ih, hsecond]
      show _ = 0 + delimitersFrom true (c :: rest)
      rw [hsecond, Nat.zero_add]
  | case4 rest ih =>
      rw [ih]
      simp [delimitersFrom, escapesNext, Nat.add_comm]
  | case5 c rest hback hbar ih =>
      by_cases hlast : c = '\\'
      · cases rest with
        | nil => simp [delimiters, delimitersFrom, hlast]
        | cons d rest => exact (hback d rest hlast rfl).elim
      · rw [ih, delimitersFrom_cons_of_ne ⟨fun h => hbar h, hlast⟩]

theorem delimitersFrom_append (escaped : Bool) (a b : Text) :
    delimitersFrom escaped (a ++ b) =
      delimitersFrom escaped a + delimitersFrom (escapesAfter escaped a) b := by
  induction a generalizing escaped with
  | nil => simp [delimitersFrom, escapesAfter]
  | cons c a ih =>
      rw [List.cons_append, delimitersFrom, delimitersFrom, ih]
      simp only [escapesAfter, List.foldl_cons, Nat.add_assoc]

theorem escapesAfter_append (escaped : Bool) (a b : Text) :
    escapesAfter escaped (a ++ b) = escapesAfter (escapesAfter escaped a) b :=
  List.foldl_append

/-! ## Exposed bars -/

/-- The number of backslashes at the end of a text. -/
def backslashes (t : Text) : Nat :=
  (t.rtakeWhile (· == '\\')).length

/-- The number of bars that an odd number of backslashes stands directly before. -/
def exposedBars (t : Text) : Nat :=
  (List.range t.length).countP fun i => t[i]? == some '|' && backslashes (t.take i) % 2 == 1

theorem backslashes_append_backslash (t : Text) : backslashes (t ++ ['\\']) = backslashes t + 1 := by
  simp [backslashes, List.rtakeWhile_concat_pos]

theorem backslashes_append_of_ne (t : Text) {c : Char} (hc : c ≠ '\\') :
    backslashes (t ++ [c]) = 0 := by
  simp [backslashes, List.rtakeWhile_concat_neg, hc]

theorem exposedBars_append_singleton (t : Text) (c : Char) :
    exposedBars (t ++ [c]) =
      exposedBars t + if c = '|' ∧ backslashes t % 2 = 1 then 1 else 0 := by
  unfold exposedBars
  rw [List.length_append, List.length_singleton, List.range_succ, List.countP_append]
  congr 1
  · refine List.countP_congr fun i hi => ?_
    have hlt : i < t.length := by simpa using hi
    rw [List.getElem?_append_left hlt, List.take_append_of_le_length (Nat.le_of_lt hlt)]
  · simp [List.countP_cons]

/-- No bar is exposed when there is an even number of backslashes before each. -/
theorem exposedBars_eq_zero_iff (t : Text) :
    exposedBars t = 0 ↔ ∀ a b, t = a ++ '|' :: b → Even (backslashes a) := by
  simp only [exposedBars, List.countP_eq_zero, List.mem_range, Bool.and_eq_true, beq_iff_eq,
    not_and, Nat.even_iff]
  constructor
  · rintro h a b rfl
    have hat := h a.length (by simp) (by simp)
    rw [List.take_left] at hat
    omega
  · intro h i hi hbar
    have hsplit : t = t.take i ++ '|' :: t.drop (i + 1) := by
      rw [List.getElem?_eq_getElem hi] at hbar
      rw [← Option.some.inj hbar, ← List.drop_eq_getElem_cons hi, List.take_append_drop]
    have heven := h _ _ hsplit
    omega

end Text

namespace Table

open Text

/-! ## Cells -/

theorem escapeBars_append_singleton (t : Text) (c : Char) :
    escapeBars (t ++ [c]) = escapeBars t ++ if c = '|' then ['\\', '|'] else [c] := by
  simp [escapeBars, Text.replace]

/-- Behind an escaped text a character is literal when an odd number of backslashes is at
its end, and so the exposed bars are the ones that delimit. -/
theorem delimitersFrom_escapeBars (t : Text) :
    delimitersFrom false (escapeBars t) = exposedBars t ∧
      escapesAfter false (escapeBars t) = decide (backslashes t % 2 = 1) := by
  induction t using List.reverseRecOn with
  | nil => exact ⟨rfl, rfl⟩
  | append_singleton t c ih =>
      obtain ⟨hcount, hafter⟩ := ih
      rw [escapeBars_append_singleton, delimitersFrom_append, escapesAfter_append, hcount, hafter,
        exposedBars_append_singleton]
      by_cases hbar : c = '|'
      · subst hbar
        rw [backslashes_append_of_ne t (by decide)]
        by_cases hodd : backslashes t % 2 = 1 <;>
          simp [delimitersFrom, escapesAfter, escapesNext, hodd]
      · by_cases hback : c = '\\'
        · subst hback
          rw [backslashes_append_backslash]
          by_cases hodd : backslashes t % 2 = 1
          · have hnext : (backslashes t + 1) % 2 = 0 := by omega
            simp [delimitersFrom, escapesAfter, escapesNext, hodd, hnext]
          · have hnext : (backslashes t + 1) % 2 = 1 := by omega
            simp [delimitersFrom, escapesAfter, escapesNext, hodd, hnext]
        · have hplain : (c == '\\') = false := by simpa using hback
          rw [backslashes_append_of_ne t hback]
          simp [delimitersFrom, escapesAfter, escapesNext, hbar, hplain]

theorem delimitersFrom_lineBreak (escaped : Bool) (t : Text) :
    delimitersFrom escaped (lineBreak ++ t) = delimitersFrom false t := by
  show delimitersFrom escaped ('<' :: 'b' :: 'r' :: '>' :: t) = _
  rw [delimitersFrom_cons_of_ne (by decide), delimitersFrom_cons_of_ne (by decide),
    delimitersFrom_cons_of_ne (by decide), delimitersFrom_cons_of_ne (by decide)]

theorem delimitersFrom_join_nil_cons (escaped : Bool) (ls : List Text) :
    delimitersFrom escaped (join lineBreak ([] :: ls)) =
      delimitersFrom false (join lineBreak ls) := by
  rw [join_nil_cons]
  split
  · rename_i hnil
    rw [hnil]
    rfl
  · exact delimitersFrom_lineBreak escaped _

/-- A line ending and what stands in its place are read alike: nothing is literal behind
them, and no bar is in them. -/
theorem delimitersFrom_join_lines (escaped : Bool) (t : Text) :
    delimitersFrom escaped (join lineBreak (lines t)) = delimitersFrom escaped t := by
  fun_induction lines t generalizing escaped with
  | case1 => rfl
  | case2 rest ih =>
      rw [delimitersFrom_join_nil_cons, ih, delimitersFrom_cons_of_ne (by decide)]
  | case3 rest ih =>
      rw [delimitersFrom_join_nil_cons, ih, delimitersFrom_cons_of_ne (by decide),
        delimitersFrom_cons_of_ne (by decide)]
  | case4 c rest _ _ ih => rw [join_onFirstLine, delimitersFrom, delimitersFrom, ih]

/-- The bars of a cell that delimit are the exposed ones. -/
theorem delimiters_markdownCell (t : Text) : delimiters (markdownCell t) = exposedBars t := by
  rw [delimiters_eq, markdownCell, delimitersFrom_join_lines, (delimitersFrom_escapeBars t).1]

/-! ## Rows -/

/-- A bar that is not literal delimits, and the next character is not literal. -/
theorem delimitersFrom_bar (t : Text) :
    delimitersFrom false ('|' :: t) = delimitersFrom false t + 1 :=
  Nat.add_comm _ _

/-- Nothing is literal behind a space. -/
theorem delimitersFrom_space (escaped : Bool) (t : Text) :
    delimitersFrom escaped (' ' :: t) = delimitersFrom false t :=
  delimitersFrom_cons_of_ne (by decide) escaped t

theorem delimitersFrom_spaces (escaped : Bool) (n : Nat) (t : Text) :
    delimitersFrom escaped (copies (n + 1) ' ' ++ t) = delimitersFrom false t := by
  induction n generalizing escaped with
  | zero => exact delimitersFrom_space escaped t
  | succ n ih => exact (delimitersFrom_space escaped (copies (n + 1) ' ' ++ t)).trans (ih false)

/-- Cells between bars are read one by one. -/
theorem delimiters_barred {cells : List Text} {widths : List Nat}
    (hlength : cells.length = widths.length) :
    delimiters (barred (List.zipWith framed cells (gapsFor width widths cells))) =
      cells.length + 1 + (cells.map delimiters).sum := by
  induction cells generalizing widths with
  | nil => rfl
  | cons t cells ih =>
      cases widths with
      | nil => simp at hlength
      | cons w widths =>
          have hlength : cells.length = widths.length := by simpa using hlength
          have hrest := ih hlength
          have hshape : barred (List.zipWith framed (t :: cells)
              (gapsFor width (w :: widths) (t :: cells))) =
              '|' :: ' ' :: (t ++ (copies (w - width t + 1) ' ' ++
                barred (List.zipWith framed cells (gapsFor width widths cells)))) := by
            simp [barred, framed, gapsFor]
          rw [delimiters_eq] at hrest ⊢
          rw [hshape, delimitersFrom_bar, delimitersFrom_space, delimitersFrom_append,
            delimitersFrom_spaces, hrest, ← delimiters_eq, List.map_cons, List.sum_cons,
            List.length_cons]
          omega

theorem delimiters_markdownLine {widths : List Nat} {row : Row} (hne : row ≠ [])
    (hlength : row.length = widths.length) :
    delimiters (markdownLine widths row) = row.length + 1 + (row.map exposedBars).sum := by
  unfold markdownLine
  rw [lineText_markdown_eq_barred (by simpa using hne) (by simpa using hlength),
    delimiters_barred (by simpa using hlength), List.length_map, List.map_map]
  congr 2
  exact List.map_congr_left fun cell _ => delimiters_markdownCell cell

section Markdown

variable {headers : Row} {rows : List Row}

/-- The delimiters of the lines of a markdown table.  The line of the header and those of
the rows have one delimiter more than there are columns, and one more for every exposed
bar; so no cell opens or closes a column exactly when all its bars have an even number of
backslashes before them. -/
theorem delimiters_render (hne : headers ≠ []) (h : ∀ row ∈ rows, row.length = headers.length) :
    ∃ out header dash body,
      render .markdown headers rows = .ok out ∧ lines out = header :: dash :: body ∧
      List.Forall₂ (fun row line =>
          delimiters line = headers.length + 1 + (row.map exposedBars).sum)
        (headers :: rows) (header :: body) ∧
      ((∀ line ∈ header :: body, delimiters line = headers.length + 1) ↔
        ∀ row ∈ headers :: rows, ∀ cell ∈ row,
          ∀ a b, cell = a ++ '|' :: b → Even (backslashes a)) := by
  have hall : ∀ row ∈ headers :: rows, row.length = headers.length := by
    simpa using h
  have hcount : (shownWidths soleLine headers rows).length = headers.length :=
    length_shownWidths h
  have hlines := lines_text_markdown headers rows
  generalize shownWidths soleLine headers rows = widths at *
  have hrow : ∀ row ∈ headers :: rows, delimiters (markdownLine widths row) =
      headers.length + 1 + (row.map exposedBars).sum := by
    intro row hmem
    have hlength := hall row hmem
    have hcells : row ≠ [] := by
      have hpos := List.length_pos_iff.2 hne
      rw [← List.length_pos_iff]
      omega
    rw [delimiters_markdownLine hcells (hlength.trans hcount.symm), hlength]
  refine ⟨_, _, _, _, render_eq_ok h .markdown, hlines, forall₂_markdownLine hrow, ?_⟩
  rw [← List.map_cons, List.forall_mem_map]
  refine forall₂_congr fun row hmem => ?_
  simp only [← exposedBars_eq_zero_iff]
  rw [hrow row hmem, ← List.forall_mem_map (P := (· = 0)), ← List.sum_eq_zero_iff_forall_eq_nat]
  omega

end Markdown

/-- A bar behind one backslash is exposed, one behind two or behind none is not, and a
backslash at the end of a cell does nothing. -/
theorem delimiters_render_backslashes :
    let headers := [['A'], ['B']]
    let rows := [["a\\|b".toList, "c\\\\|d".toList], ["x|y".toList, ['\\']]]
    (headers ≠ [] ∧ ∀ row ∈ rows, row.length = headers.length) ∧
      rows.map (fun row => (row.map exposedBars).sum) = [1, 0] ∧
      ∃ out header dash body,
        render .markdown headers rows = .ok out ∧ lines out = header :: dash :: body ∧
        List.Forall₂ (fun row line => delimiters line = 3 + (row.map exposedBars).sum)
          (headers :: rows) (header :: body) := by
  intro headers rows
  have hne : headers ≠ [] := by decide
  have h : ∀ row ∈ rows, row.length = headers.length := by decide
  obtain ⟨out, header, dash, body, hout, hlines, hrows, -⟩ := delimiters_render hne h
  exact ⟨⟨hne, h⟩, by decide, out, header, dash, body, hout, hlines, hrows⟩

/-- A cell of a backslash and a bar closes its column: the line of its row has a delimiter
more than the line of the header. -/
theorem exposedBar_closes_column :
    let headers := [['A']]
    let rows := [["\\|".toList]]
    (∀ row ∈ rows, row.length = headers.length ∧ ∀ cell ∈ row, '\n' ∉ cell ∧ '\r' ∉ cell) ∧
      ∃ out line, render .markdown headers rows = .ok out ∧ (lines out)[2]? = some line ∧
        delimiters line ≠ headers.length + 1 := by
  intro headers rows
  have h : ∀ row ∈ rows, row.length = headers.length := by decide
  exact ⟨by decide, _, _, render_eq_ok h .markdown, by rfl, by decide +kernel⟩

end Table

end SetterReport
