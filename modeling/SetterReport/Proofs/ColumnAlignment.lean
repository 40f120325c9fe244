import Mathlib.Algebra.Ring.Nat
import Mathlib.Order.Bounds.Basic
import SetterReport.Proofs.TableLines
import SetterReport.Proofs.WidthSum

/-!
# Columns that line up

A column is as wide as the widest line that is shown in it (`areWidest_shownWidths`), so
that every cell can be filled up with spaces to where the next column starts.  In the plain
format there is one space between columns; in the markdown one a bar and a space on either
side of it, so that all lines, the dashes included, have their bars at the same places and
are of one width.

Where a cell starts is the sum of the widths of the columns before it.  This holds in every
measure of texts that adds up at spaces (`measure_spaced_take`), or at spaces, bars and
dashes (`measure_framed_take`, `measure_dashes_take`), and nothing else is asked of it.  The
width on a terminal adds up at all three, whatever the characters of the cells: wide ones,
ones without a column of their own, or control sequences.

## Main results

* `columns_line_up` — the lines of a plain table, and where its cells start.
* `bars_line_up` — the lines of a markdown table, and where its bars stand.
-/

namespace SetterReport.Table

open Text

/-! ## The widths of columns -/

/-- The widths of all lines that are shown in a column of a table. -/
def lineWidths (shown : Text → Cell) (table : List Row) (k : Nat) : Set Nat :=
  {n | ∃ row ∈ table, ∃ cell, row[k]? = some cell ∧ ∃ line ∈ shown cell, width line = n}

/-- Every column has the width of the widest line in it. -/
def AreWidest (shown : Text → Cell) (table : List Row) (widths : List Nat) : Prop :=
  ∀ k w, widths[k]? = some w → IsGreatest (lineWidths shown table k) w

theorem foldr_max_mem {ns : List Nat} (hne : ns ≠ []) : ns.foldr max 0 ∈ ns := by
  induction ns with
  | nil => exact absurd rfl hne
  | cons n ns ih =>
      by_cases hns : ns = []
      · simp [hns]
      · show max n (ns.foldr max 0) ∈ n :: ns
        rcases Nat.le_total n (ns.foldr max 0) with hle | hle
        · rw [Nat.max_eq_right hle]
          exact List.mem_cons_of_mem _ (ih hns)
        · rw [Nat.max_eq_left hle]
          exact List.mem_cons_self

/-- A cell is as wide as one of its lines. -/
theorem exists_width_eq_cellWidth {c : Cell} (hne : c ≠ []) :
    ∃ line ∈ c, width line = cellWidth c :=
  List.mem_map.1 (foldr_max_mem (by simpa using hne))

theorem width_le_cellWidth {c : Cell} {line : Text} (h : line ∈ c) : width line ≤ cellWidth c :=
  le_foldr_max (List.mem_map.2 ⟨line, h, rfl⟩)

section Widths

variable {shown : Text → Cell} {headers : Row} {rows : List Row}

theorem areWidest_shownWidths (hshown : ∀ t, shown t ≠ [])
    (h : ∀ row ∈ rows, row.length = headers.length) :
    AreWidest shown (headers :: rows) (shownWidths shown headers rows) := by
  have hall : ∀ row ∈ headers :: rows, row.length = headers.length := by
    simpa using h
  intro k w hw
  rw [shownWidths_eq h] at hw
  obtain ⟨hk, rfl⟩ := List.getElem?_eq_some_iff.1 hw
  have hk : k < headers.length := by simpa using hk
  simp only [List.getElem_map, List.getElem_range]
  have hcell : ∀ row ∈ headers :: rows, row[k]? = some (row.getD k []) := by
    intro row hrow
    have hlt : k < row.length := by
      rw [hall row hrow]
      exact hk
    simp [List.getD_eq_getElem?_getD, hlt]
  constructor
  · -- the widest cell of the column, and the widest line of that cell
    have hne : (headers :: rows).map (fun row => cellWidth (shown (row.getD k []))) ≠ [] := by
      simp
    obtain ⟨row, hrow, hrowWidth⟩ := List.mem_map.1 (foldr_max_mem hne)
    obtain ⟨line, hline, hwidth⟩ := exists_width_eq_cellWidth (hshown (row.getD k []))
    exact ⟨row, hrow, row.getD k [], hcell row hrow, line, hline, hwidth.trans hrowWidth⟩
  · rintro n ⟨row, hrow, cell, hrowk, line, hline, rfl⟩
    rw [hcell row hrow] at hrowk
    obtain rfl : row.getD k [] = cell := by simpa using hrowk
    refine le_trans (width_le_cellWidth hline) (le_foldr_max ?_)
    exact List.mem_map.2 ⟨row, hrow, rfl⟩

/-- A line of a cell is not wider than its column. -/
theorem AreWidest.width_le {table : List Row} {widths : List Nat} {row : Row} {k : Nat}
    {cell line : Text} (hwidths : AreWidest shown table widths) (hk : k < widths.length)
    (hrow : row ∈ table) (hcell : row[k]? = some cell) (hline : line ∈ shown cell) :
    width line ≤ widths[k] :=
  (hwidths k widths[k] (List.getElem?_eq_getElem hk)).2 ⟨row, hrow, cell, hcell, line, hline, rfl⟩

end Widths

/-- The place where a column starts, with `border` characters between two columns. -/
def offset (border : Nat) (widths : List Nat) (k : Nat) : Nat :=
  ((widths.take k).map (· + border)).sum

theorem offset_succ (border w : Nat) (widths : List Nat) (k : Nat) :
    offset border (w :: widths) (k + 1) = w + border + offset border widths k := by
  simp [offset]

/-! ## Plain tables -/

/-- Cells one after the other, with as many spaces behind each as is said. -/
def spaced : List Text → List Nat → Text
  | t :: cells, n :: gaps => t ++ copies n ' ' ++ spaced cells gaps
  | _, _ => []

/-- A line that consists of the given cells, spaces behind them, with the blanks at its
end left out, and on which every cell starts where its column does. -/
def IsAligned (widths : List Nat) (cells : List Text) (line : Text) : Prop :=
  ∃ gaps : List Nat, gaps.length = cells.length ∧ line = trimEnd (spaced cells gaps) ∧
    ∀ k < cells.length, width (spaced (cells.take k) (gaps.take k)) = offset 1 widths k

/-- The number of lines that a row takes: that of its tallest cell, and one at least. -/
def tallest (row : Row) : Nat :=
  (row.map fun cell => (textLines cell).length).foldr max 1

/-- The lines of a row of a plain table: as many as its tallest cell has, and on each of
them one line of every cell, or nothing where a cell has run out. -/
structure IsPlainBlock (widths : List Nat) (row : Row) (block : List Text) : Prop where
  length_eq : block.length = tallest row
  isAligned : ∀ i line, block[i]? = some line →
    IsAligned widths (row.map fun cell => (textLines cell).getD i []) line

section Line

variable {μ : Text → Nat} {cells : List Text} {widths : List Nat}

/-- In a measure that adds up at spaces, cells that fit their columns start where these do, if
they are followed by the spaces that are missing and one more. -/
theorem measure_spaced_take (hspace : AddsUpAt μ ' ')
    (h : List.Forall₂ (fun t w => μ t ≤ w) cells widths) (k : Nat) :
    μ (spaced (cells.take k) ((gapsFor μ widths cells).take k)) = offset 1 widths k := by
  induction h generalizing k with
  | nil => simp [spaced, offset, hspace.nil_eq]
  | @cons t w cells widths hle _ ih =>
      cases k with
      | zero => simp [spaced, offset, hspace.nil_eq]
      | succ k =>
          have hrest := ih k
          show μ (t ++ copies (w - μ t + 1) ' ' ++
            spaced (cells.take k) ((gapsFor μ widths cells).take k)) = _
          rw [hspace.append_copies_append_eq, hrest, offset_succ]
          omega

/-- The padded cells with a space between them, and one more behind. -/
theorem spaced_gapsFor (hlength : cells.length = widths.length) (hne : cells ≠ []) :
    spaced cells (gapsFor width widths cells) = join [' '] (padded widths cells) ++ [' '] := by
  induction cells generalizing widths with
  | nil => exact absurd rfl hne
  | cons t cells ih =>
      cases widths with
      | nil => simp at hlength
      | cons w widths =>
          have hlength : cells.length = widths.length := by simpa using hlength
          have hfirst : copies (w - width t + 1) ' ' = copies (w - width t) ' ' ++ [' '] := by
            simp [copies, List.replicate_succ']
          show t ++ copies (w - width t + 1) ' ' ++ spaced cells (gapsFor width widths cells) =
            join [' '] (padTo w t :: padded widths cells) ++ [' ']
          rw [hfirst]
          cases cells with
          | nil => simp [join, padTo, padded, spaced]
          | cons u cells =>
              have hpadded : padded widths (u :: cells) ≠ [] := by
                cases widths with
                | nil => simp at hlength
                | cons v widths => simp [padded]
              rw [ih hlength (by simp)]
              unfold join
              rw [List.intercalate_cons_of_ne_nil hpadded]
              simp [padTo]

theorem trimEnd_append_space (t : Text) : trimEnd (t ++ [' ']) = trimEnd t :=
  List.rdropWhile_concat_pos _ _ _ (by decide)

theorem isAligned_lineText (h : List.Forall₂ (fun t w => width t ≤ w) cells widths) :
    IsAligned widths cells (lineText .plain widths cells) := by
  have hlength := h.length_eq
  have hstarts := measure_spaced_take (addsUpAt_width standsAlone_space) h
  refine ⟨gapsFor width widths cells, by simp [gapsFor, hlength], ?_, fun k _ => hstarts k⟩
  show trimEnd (join [' '] (padded widths cells)) = _
  by_cases hne : cells = []
  · subst hne
    rfl
  · rw [spaced_gapsFor hlength hne, trimEnd_append_space]

end Line

theorem foldr_max_one (ns : List Nat) : ns.foldr max 1 = max 1 (ns.foldr max 0) := by
  induction ns with
  | nil => rfl
  | cons n ns ih =>
      simp only [List.foldr_cons, ih]
      omega

theorem rowHeight_textLines (row : Row) : rowHeight (row.map textLines) = tallest row := by
  cases row with
  | nil => rfl
  | cons cell row =>
      have hpos := List.length_pos_iff.2 (textLines_ne_nil cell)
      simp only [rowHeight, tallest, foldr_max_one, List.map_cons, List.map_map, List.foldr_cons,
        Function.comp_def]
      omega

section Plain

variable {headers row : Row} {rows : List Row}

/-- The cells of a line fit their columns. -/
theorem forall₂_width_le {widths : List Nat} (hwidths : AreWidest textLines (headers :: rows) widths)
    (hrow : row ∈ headers :: rows) (hlength : row.length = widths.length) (i : Nat) :
    List.Forall₂ (fun t w => width t ≤ w) (lineCells (row.map textLines) i) widths := by
  rw [List.forall₂_iff_get]
  refine ⟨by simpa [lineCells] using hlength, ?_⟩
  intro k hk hk'
  have hlt : k < row.length := by simpa [lineCells] using hk
  simp only [lineCells, List.map_map, List.get_eq_getElem, List.getElem_map, Function.comp_apply]
  by_cases hi : i < (textLines row[k]).length
  · have hline : (textLines row[k]).getD i [] ∈ textLines row[k] := by
      simp [List.getD_eq_getElem?_getD, hi]
    exact hwidths.width_le hk' hrow (List.getElem?_eq_getElem hlt) hline
  · have hblank : (textLines row[k]).getD i [] = [] := by
      simp [List.getD_eq_getElem?_getD, not_lt.1 hi]
    rw [hblank, width_nil]
    exact Nat.zero_le _

theorem isPlainBlock_rowLines {widths : List Nat}
    (hwidths : AreWidest textLines (headers :: rows) widths) (hrow : row ∈ headers :: rows)
    (hlength : row.length = widths.length) :
    IsPlainBlock widths row (rowLines .plain widths (row.map textLines)) where
  length_eq := by simp [rowLines, rowHeight_textLines]
  isAligned i line hline := by
    obtain ⟨hi, rfl⟩ := List.getElem?_eq_some_iff.1 hline
    have hcells : lineCells (row.map textLines) i =
        row.map fun cell => (textLines cell).getD i [] := by
      simp [lineCells]
    simp only [rowLines, List.getElem_map, List.getElem_range, ← hcells]
    exact isAligned_lineText (forall₂_width_le hwidths hrow hlength i)

/-- The columns of a plain table line up.  Every row takes the lines of its tallest cell,
and on every line each cell starts at the sum of the widths of the columns before it, one
space more for each. -/
theorem columns_line_up (h : ∀ row ∈ rows, row.length = headers.length) :
    ∃ out widths blocks,
      render .plain headers rows = .ok out ∧ widths.length = headers.length ∧
      AreWidest textLines (headers :: rows) widths ∧
      lines out = blocks.flatten ∧
      List.Forall₂ (IsPlainBlock widths) (headers :: rows) blocks ∧
      (lines out).length = ((headers :: rows).map tallest).sum := by
  have hall : ∀ row ∈ headers :: rows, row.length = headers.length := by
    simpa using h
  have hwidths := areWidest_shownWidths textLines_ne_nil h
  have hcount : (shownWidths textLines headers rows).length = headers.length :=
    length_shownWidths h
  have hlines := lines_text_plain headers rows
  generalize shownWidths textLines headers rows = widths at hwidths hcount hlines
  have hblocks : List.Forall₂ (IsPlainBlock widths) (headers :: rows)
      ((headers :: rows).map fun row => rowLines .plain widths (row.map textLines)) := by
    rw [List.forall₂_map_right_iff, List.forall₂_same]
    exact fun row hrow => isPlainBlock_rowLines hwidths hrow ((hall row hrow).trans hcount.symm)
  refine ⟨_, widths, _, render_eq_ok h .plain, hcount, hwidths, ?_, hblocks, ?_⟩
  · rw [hlines, List.flatMap_def]
  · rw [hlines, List.length_flatMap]
    congr 1
    exact List.map_congr_left fun row _ => by simp [rowLines, rowHeight_textLines]

end Plain

/-- Columns with wide characters and cells of two lines. -/
theorem columns_line_up_wide :
    let headers := ["N".toList, "V".toList]
    let rows := [["日本\nx".toList, "y".toList], ["ab".toList, "1\n2".toList]]
    (∀ row ∈ rows, row.length = headers.length) ∧
      ∃ out widths blocks,
        render .plain headers rows = .ok out ∧ widths.length = 2 ∧
        AreWidest textLines (headers :: rows) widths ∧
        lines out = ["N    V".toList, "日本 y".toList, ['x'], "ab   1".toList,
          "     2".toList] ∧
        lines out = blocks.flatten ∧
        List.Forall₂ (IsPlainBlock widths) (headers :: rows) blocks ∧ (lines out).length = 5 := by
  intro headers rows
  have h : ∀ row ∈ rows, row.length = headers.length := by decide
  obtain ⟨out, widths, blocks, hout, hcount, hwidths, hlines, hblocks, hsum⟩ := columns_line_up h
  have htext : lines out = ["N    V".toList, "日本 y".toList, ['x'], "ab   1".toList,
      "     2".toList] := by
    rw [render_eq_ok h] at hout
    obtain rfl := Except.ok.inj hout
    decide +kernel
  exact ⟨h, out, widths, blocks, hout, hcount, hwidths, htext, hlines, hblocks,
    hsum.trans (by decide)⟩

/-! ## Markdown tables -/

/-- A line that consists of the given fields between bars, every bar standing where a
column ends: at the sum of the widths of the columns before it, three more for each. -/
structure HasBarsAt (widths : List Nat) (fields : List Text) (line : Text) : Prop where
  length_eq : fields.length = widths.length
  line_eq : line = barred fields
  width_before : ∀ k ≤ fields.length,
    width ((fields.take k).flatMap ('|' :: ·)) = offset 3 widths k

namespace HasBarsAt

variable {widths : List Nat} {fields : List Text} {line : Text}

theorem width_eq (h : HasBarsAt widths fields line) :
    width line = 1 + (widths.map (· + 3)).sum := by
  have hall := h.width_before fields.length (Nat.le_refl _)
  rw [List.take_length, offset, h.length_eq, List.take_length] at hall
  rw [h.line_eq, barred, (addsUpAt_width standsAlone_bar).append_cons_eq, hall, width_nil]
  omega

end HasBarsAt

section Bars

variable {μ : Text → Nat}

/-- A framed cell behind a bar takes the columns of its own, and three more. -/
theorem measure_bar_framed (hspace : AddsUpAt μ ' ') (hbar : AddsUpAt μ '|') {t : Text} {w : Nat}
    (hle : μ t ≤ w) (rest : Text) :
    μ ('|' :: framed t (w - μ t + 1) ++ rest) = w + 3 + μ rest := by
  have hshape : '|' :: framed t (w - μ t + 1) ++ rest =
      '|' :: ' ' :: (t ++ copies (w - μ t + 1) ' ' ++ rest) := by
    simp [framed]
  rw [hshape, hbar.cons_eq, hspace.cons_eq, hspace.append_copies_append_eq]
  omega

theorem measure_bar_dashes (hbar : AddsUpAt μ '|') (hdash : AddsUpAt μ '-') (w : Nat)
    (rest : Text) : μ ('|' :: copies (w + 2) '-' ++ rest) = w + 3 + μ rest := by
  have hsum := hdash.append_copies_append_eq [] (w + 1) rest
  rw [List.nil_append, hdash.nil_eq] at hsum
  rw [List.cons_append, hbar.cons_eq, hsum]
  omega

/-- In a measure that adds up at spaces and bars, the bars of a line stand where the columns
end, if its cells fit. -/
theorem measure_framed_take (hspace : AddsUpAt μ ' ') (hbar : AddsUpAt μ '|')
    {cells : List Text} {widths : List Nat}
    (h : List.Forall₂ (fun t w => μ t ≤ w) cells widths) (k : Nat) :
    μ (((List.zipWith framed cells (gapsFor μ widths cells)).take k).flatMap ('|' :: ·)) =
      offset 3 widths k := by
  induction h generalizing k with
  | nil => simp [offset, hbar.nil_eq]
  | @cons t w cells widths hle _ ih =>
      cases k with
      | zero => simp [offset, hbar.nil_eq]
      | succ k =>
          show μ ('|' :: framed t (w - μ t + 1) ++
            ((List.zipWith framed cells (gapsFor μ widths cells)).take k).flatMap ('|' :: ·)) = _
          rw [measure_bar_framed hspace hbar hle, ih k, offset_succ]

/-- In a measure that adds up at bars and dashes, so do the bars between the dashes. -/
theorem measure_dashes_take (hbar : AddsUpAt μ '|') (hdash : AddsUpAt μ '-') (widths : List Nat)
    (k : Nat) :
    μ (((widths.map fun w => copies (w + 2) '-').take k).flatMap ('|' :: ·)) =
      offset 3 widths k := by
  induction widths generalizing k with
  | nil => simp [offset, hbar.nil_eq]
  | cons w widths ih =>
      cases k with
      | zero => simp [offset, hbar.nil_eq]
      | succ k =>
          show μ ('|' :: copies (w + 2) '-' ++
            ((widths.map fun w => copies (w + 2) '-').take k).flatMap ('|' :: ·)) = _
          rw [measure_bar_dashes hbar hdash, ih k, offset_succ]

end Bars

theorem hasBarsAt_lineText {cells : List Text} {widths : List Nat} (hne : cells ≠ [])
    (h : List.Forall₂ (fun t w => width t ≤ w) cells widths) :
    HasBarsAt widths (List.zipWith framed cells (gapsFor width widths cells))
      (lineText .markdown widths cells) where
  length_eq := by simp [gapsFor, h.length_eq]
  line_eq := lineText_markdown_eq_barred hne h.length_eq
  width_before k _ :=
    measure_framed_take (addsUpAt_width standsAlone_space) (addsUpAt_width standsAlone_bar) h k

theorem hasBarsAt_dashLine (widths : List Nat) :
    HasBarsAt widths (widths.map fun w => copies (w + 2) '-') (dashLine widths) where
  length_eq := by simp
  line_eq := by
    induction widths with
    | nil => rfl
    | cons w widths ih =>
        have hrest : dashLine (w :: widths) =
            '|' :: copies (w + 2) '-' ++ dashLine widths := by
          simp [dashLine]
        rw [hrest, ih]
        simp [barred]
  width_before k _ :=
    measure_dashes_take (addsUpAt_width standsAlone_bar) (addsUpAt_width standsAlone_dash) widths k

section Markdown

variable {headers row : Row} {rows : List Row}

/-- The cells of a row fit their columns. -/
theorem forall₂_width_markdownCell_le {widths : List Nat}
    (hwidths : AreWidest soleLine (headers :: rows) widths)
    (hrow : row ∈ headers :: rows) (hlength : row.length = widths.length) :
    List.Forall₂ (fun t w => width t ≤ w) (row.map markdownCell) widths := by
  rw [List.forall₂_map_left_iff, List.forall₂_iff_get]
  refine ⟨hlength, fun k hk hk' => ?_⟩
  exact hwidths.width_le hk' hrow (List.getElem?_eq_getElem hk) (List.mem_singleton.2 rfl)

/-- The bars of a markdown table line up.  Its lines are that of the header, the dashes
and one for every row; on all of them the bars stand at the sums of the widths of the
columns before, three more for each, so that all lines are of one width. -/
theorem bars_line_up (hne : headers ≠ []) (h : ∀ row ∈ rows, row.length = headers.length) :
    ∃ out widths header dash body,
      render .markdown headers rows = .ok out ∧ widths.length = headers.length ∧
      AreWidest soleLine (headers :: rows) widths ∧
      lines out = header :: dash :: body ∧
      HasBarsAt widths (widths.map fun w => copies (w + 2) '-') dash ∧
      List.Forall₂ (fun row line => ∃ gaps,
          HasBarsAt widths (List.zipWith framed (row.map markdownCell) gaps) line)
        (headers :: rows) (header :: body) ∧
      ∀ line ∈ lines out, width line = 1 + (widths.map (· + 3)).sum := by
  have hall : ∀ row ∈ headers :: rows, row.length = headers.length := by
    simpa using h
  have hwidths := areWidest_shownWidths soleLine_ne_nil h
  have hcount : (shownWidths soleLine headers rows).length = headers.length :=
    length_shownWidths h
  have hlines := lines_text_markdown headers rows
  generalize shownWidths soleLine headers rows = widths at *
  have hrow : ∀ row ∈ headers :: rows,
      HasBarsAt widths
        (List.zipWith framed (row.map markdownCell) (gapsFor width widths (row.map markdownCell)))
        (markdownLine widths row) := by
    intro row hrow
    have hlength := hall row hrow
    have hcells : row.map markdownCell ≠ [] := by
      have hpos := List.length_pos_iff.2 hne
      rw [← List.length_pos_iff, List.length_map]
      omega
    exact hasBarsAt_lineText hcells
      (forall₂_width_markdownCell_le hwidths hrow (hlength.trans hcount.symm))
  have hdash := hasBarsAt_dashLine widths
  refine ⟨_, widths, _, _, _, render_eq_ok h .markdown, hcount, hwidths, hlines, hdash,
    forall₂_markdownLine fun row hmem => ⟨_, hrow row hmem⟩, ?_⟩
  intro line hline
  rw [hlines] at hline
  rcases List.mem_cons.1 hline with rfl | hline
  · exact (hrow headers (by simp)).width_eq
  · rcases List.mem_cons.1 hline with rfl | hline
    · exact hdash.width_eq
    · obtain ⟨row, hmem, rfl⟩ := List.mem_map.1 hline
      exact (hrow row (List.mem_cons_of_mem _ hmem)).width_eq

/-- A table with wide characters, a bar that is escaped, and a cell of two lines. -/
theorem bars_line_up_wide :
    let headers := ["N".toList, "V".toList]
    let rows := [["日本\nx".toList, "y".toList], ["a|b".toList, []]]
    (headers ≠ [] ∧ ∀ row ∈ rows, row.length = headers.length) ∧
      ∃ out widths header dash body,
        render .markdown headers rows = .ok out ∧ widths.length = 2 ∧
        AreWidest soleLine (headers :: rows) widths ∧
        lines out = ["| N         | V |".toList, "|-----------|---|".toList,
          "| 日本<br>x | y |".toList, "| a\\|b      |   |".toList] ∧
        lines out = header :: dash :: body ∧
        HasBarsAt widths (widths.map fun w => copies (w + 2) '-') dash ∧
        List.Forall₂ (fun row line => ∃ gaps,
            HasBarsAt widths (List.zipWith framed (row.map markdownCell) gaps) line)
          (headers :: rows) (header :: body) ∧
        ∀ line ∈ lines out, width line = 1 + (widths.map (· + 3)).sum := by
  intro headers rows
  have hne : headers ≠ [] := by decide
  have h : ∀ row ∈ rows, row.length = headers.length := by decide
  obtain ⟨out, widths, header, dash, body, hout, hcount, hwidths, hlines, hrest⟩ :=
    bars_line_up hne h
  have htext : lines out = ["| N         | V |".toList, "|-----------|---|".toList,
      "| 日本<br>x | y |".toList, "| a\\|b      |   |".toList] := by
    rw [render_eq_ok h] at hout
    obtain rfl := Except.ok.inj hout
    decide +kernel
  exact ⟨⟨hne, h⟩, out, widths, header, dash, body, hout, hcount, hwidths, htext, hlines, hrest⟩

end Markdown

end SetterReport.Table
