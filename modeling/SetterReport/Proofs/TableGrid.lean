import Mathlib.Data.List.Basic
import SetterReport.Table
import SetterReport.Proofs.TextLayout

/-!
# What a table holds

The cells of a table are shown as lines: in the plain format as they are, in the
markdown format joined to one line.  A column is as wide as the widest of the lines
in it, that of the header and those of all rows alike (`shownWidths_eq`), so that
every line of a plain table fits its column (`length_le_columnWidth`).

The length of a line is its width in cells of plain characters, which both formats show
as they are.
-/

namespace SetterReport.Table

open Text

/-! ## Cells of plain characters -/

/-- Printable characters and line feeds; no bar, which would have to be escaped, and
nothing that opens a tag. -/
def IsPlainChar (c : Char) : Prop :=
  (IsShown c ∨ c = '\n') ∧ c ≠ '|' ∧ c ≠ '<'

instance : DecidablePred IsPlainChar := fun c =>
  inferInstanceAs (Decidable ((IsShown c ∨ c = '\n') ∧ c ≠ '|' ∧ c ≠ '<'))

/-- A cell of plain characters. -/
def IsPlainCell (t : Text) : Prop := ∀ c ∈ t, IsPlainChar c

instance : DecidablePred IsPlainCell := fun t =>
  List.decidableBAll IsPlainChar t

/-- A table with columns, rows that have as many cells as there are headers, and plain
characters only. -/
structure IsPlainTable (headers : Row) (rows : List Row) : Prop where
  ne_nil : headers ≠ []
  length_eq : ∀ row ∈ rows, row.length = headers.length
  isPlainCell : ∀ row ∈ headers :: rows, ∀ cell ∈ row, IsPlainCell cell

namespace IsPlainTable

variable {headers row : Row} {rows : List Row}

theorem length_of_mem (h : IsPlainTable headers rows) (hrow : row ∈ headers :: rows) :
    row.length = headers.length := by
  rcases List.mem_cons.1 hrow with rfl | hrow
  · rfl
  · exact h.length_eq row hrow

theorem ne_nil_of_mem (h : IsPlainTable headers rows) (hrow : row ∈ headers :: rows) :
    row ≠ [] := by
  have hlength := h.length_of_mem hrow
  have hheaders := List.length_pos_iff.2 h.ne_nil
  rintro rfl
  simp at hlength
  omega

end IsPlainTable

/-- The lines of a cell; an empty cell has one, an empty line. -/
def textLines (t : Text) : List Text :=
  if t = [] then [[]] else lines t

theorem textLines_ne_nil (t : Text) : textLines t ≠ [] := by
  unfold textLines
  split
  · simp
  · rename_i hne
    exact lines_ne_nil hne

/-- The characters of the lines of a plain cell. -/
theorem isShown_of_mem_textLines {t line : Text} {c : Char} (ht : IsPlainCell t)
    (hline : line ∈ textLines t) (hc : c ∈ line) : IsShown c ∧ c ≠ '|' ∧ c ≠ '<' := by
  unfold textLines at hline
  split at hline
  · obtain rfl : line = [] := by simpa using hline
    simp at hc
  · obtain ⟨hmem, hnewline⟩ := of_mem_lines hline hc
    obtain ⟨hshown, hbar, htag⟩ := ht c hmem
    exact ⟨hshown.resolve_right hnewline, hbar, htag⟩

theorem cellLines_plain (t : Text) : cellLines .plain t = textLines t := by
  unfold textLines
  by_cases ht : t = []
  · subst ht
    rfl
  · rw [if_neg ht]
    simp only [cellLines]
    split
    · exact absurd ‹lines t = []› (lines_ne_nil ht)
    · rfl

theorem escapeBars_of_not_mem {t : Text} (h : '|' ∉ t) : escapeBars t = t := by
  unfold escapeBars Text.replace
  induction t with
  | nil => rfl
  | cons c t ih =>
      have hc : c ≠ '|' := fun hc => h (by simp [hc])
      rw [List.flatMap_cons, if_neg hc, ih fun ht => h (by simp [ht])]
      rfl

/-- A cell in one line: its bars escaped, and its lines with breaks between them. -/
def markdownCell (t : Text) : Text :=
  join lineBreak (lines (escapeBars t))

/-- The lines that show a cell in markdown: a single one. -/
def soleLine (t : Text) : Cell :=
  [markdownCell t]

theorem soleLine_ne_nil (t : Text) : soleLine t ≠ [] :=
  List.cons_ne_nil _ _

theorem cellLines_markdown (t : Text) : cellLines .markdown t = soleLine t := by
  unfold cellLines soleLine markdownCell
  dsimp only
  split
  · rfl
  · rename_i hbreak
    have hone : IsOneLine (escapeBars t) := by
      intro c hc
      constructor
      · rintro rfl
        simp [hc] at hbreak
      · rintro rfl
        simp [hc] at hbreak
    by_cases hne : escapeBars t = []
    · rw [hne]
      rfl
    · rw [lines_of_isOneLine hone hne]
      simp [join]

/-- A plain cell has nothing to be escaped. -/
theorem markdownCell_of_isPlainCell {t : Text} (ht : IsPlainCell t) :
    markdownCell t = join lineBreak (textLines t) := by
  have hbar : '|' ∉ t := fun h => (ht _ h).2.1 rfl
  unfold markdownCell textLines
  rw [escapeBars_of_not_mem hbar]
  split
  · rename_i hnil
    rw [hnil]
    rfl
  · rfl

/-! ## Widths -/

theorem le_foldr_max {ns : List Nat} {n : Nat} (h : n ∈ ns) : n ≤ ns.foldr max 0 := by
  induction ns with
  | nil => simp at h
  | cons m ns ih =>
      show n ≤ max m (ns.foldr max 0)
      rcases List.mem_cons.1 h with rfl | h
      · exact Nat.le_max_left _ _
      · exact le_trans (ih h) (Nat.le_max_right _ _)

theorem getD_map_of_lt {α β : Type} (f : α → β) {xs : List α} {j : Nat} (hj : j < xs.length)
    (a : α) (b : β) : (xs.map f).getD j b = f (xs.getD j a) := by
  simp [List.getD_eq_getElem?_getD, hj]

/-- One more row widens every column to hold it, the others being left. -/
theorem foldl_widen {n : Nat} :
    ∀ (rows : List (List Cell)) (widths : List Nat), widths.length = n →
      (∀ row ∈ rows, row.length = n) →
      rows.foldl widen widths = (List.range n).map fun j =>
        max (widths.getD j 0) ((rows.map fun row => cellWidth (row.getD j [])).foldr max 0) := by
  intro rows
  induction rows with
  | nil =>
      intro widths hlength hrows
      refine List.ext_getElem (by simp [hlength]) ?_
      intro j hj hj'
      have hwidth : j < widths.length := hj
      simp [List.getD_eq_getElem?_getD, hwidth]
  | cons row rows ih =>
      intro widths hlength hrows
      have hrow : row.length = n := hrows row (by simp)
      have hwiden : (widen widths row).length = n := by
        simp [widen, hlength, hrow]
      rw [List.foldl_cons, ih _ hwiden fun r hr => hrows r (by simp [hr])]
      refine List.map_congr_left fun j hj => ?_
      have hj : j < n := by simpa using hj
      have hentry : (widen widths row).getD j 0 =
          max (widths.getD j 0) (cellWidth (row.getD j [])) := by
        simp [widen, List.getD_eq_getElem?_getD, hlength, hrow, hj]
      rw [hentry, List.map_cons, List.foldr_cons, Nat.max_assoc]

/-- Every column is as wide as the widest cell in it. -/
theorem columnWidths_eq {header : List Cell} {rows : List (List Cell)}
    (hrows : ∀ row ∈ rows, row.length = header.length) :
    columnWidths header rows = (List.range header.length).map fun j =>
      ((header :: rows).map fun row => cellWidth (row.getD j [])).foldr max 0 := by
  unfold columnWidths
  rw [foldl_widen rows _ (List.length_map _) hrows]
  refine List.map_congr_left fun j hj => ?_
  rw [getD_map_of_lt cellWidth (by simpa using hj) [] 0]
  rfl

/-- The widths of the columns of a table whose cells are shown in a given way. -/
def shownWidths (shown : Text → Cell) (headers : Row) (rows : List Row) : List Nat :=
  columnWidths (headers.map shown) (rows.map (List.map shown))

theorem shownWidths_eq {shown : Text → Cell} {headers : Row} {rows : List Row}
    (h : ∀ row ∈ rows, row.length = headers.length) :
    shownWidths shown headers rows = (List.range headers.length).map fun j =>
      ((headers :: rows).map fun row => cellWidth (shown (row.getD j []))).foldr max 0 := by
  have hall : ∀ row ∈ headers :: rows, row.length = headers.length := by
    simpa using h
  unfold shownWidths
  rw [columnWidths_eq (by simpa using h), List.length_map, ← List.map_cons]
  refine List.map_congr_left fun j hj => ?_
  rw [List.map_map]
  congr 1
  refine List.map_congr_left fun row hrow => ?_
  have hlt : j < row.length := by
    rw [hall row hrow]
    simpa using hj
  rw [Function.comp_apply, getD_map_of_lt shown hlt [] []]

theorem length_shownWidths {shown : Text → Cell} {headers : Row} {rows : List Row}
    (h : ∀ row ∈ rows, row.length = headers.length) :
    (shownWidths shown headers rows).length = headers.length := by
  rw [shownWidths_eq h]
  simp

/-- The number of characters of the longest line. -/
def longest (ls : List Text) : Nat :=
  (ls.map List.length).foldr max 0

/-- The number of characters of the longest cell line in a column of a table. -/
def columnWidth (table : List Row) (j : Nat) : Nat :=
  (table.map fun row => longest (textLines (row.getD j []))).foldr max 0

/-- The widths of all columns of a table. -/
def gridWidths (headers : Row) (rows : List Row) : List Nat :=
  (List.range headers.length).map (columnWidth (headers :: rows))

/-- A line of a cell is not longer than its column is wide. -/
theorem length_le_columnWidth {table : List Row} {row : Row} {line : Text} {j : Nat}
    (hrow : row ∈ table) (hline : line ∈ textLines (row.getD j [])) :
    line.length ≤ columnWidth table j := by
  have hcell : line.length ≤ longest (textLines (row.getD j [])) :=
    le_foldr_max (List.mem_map.2 ⟨line, hline, rfl⟩)
  exact le_trans hcell (le_foldr_max (List.mem_map.2 ⟨row, hrow, rfl⟩))

theorem cellWidth_textLines {t : Text} (ht : IsPlainCell t) :
    cellWidth (textLines t) = longest (textLines t) := by
  unfold cellWidth longest
  congr 1
  exact List.map_congr_left fun line hline =>
    width_of_shown fun c hc => (isShown_of_mem_textLines ht hline hc).1

/-- The columns of a plain table are as wide as their longest lines. -/
theorem shownWidths_textLines {headers : Row} {rows : List Row} (h : IsPlainTable headers rows) :
    shownWidths textLines headers rows = gridWidths headers rows := by
  unfold gridWidths
  rw [shownWidths_eq h.length_eq]
  refine List.map_congr_left fun j hj => ?_
  unfold columnWidth
  congr 1
  refine List.map_congr_left fun row hrow => ?_
  have hlt : j < row.length := by
    rw [h.length_of_mem hrow]
    simpa using hj
  have hcell : row.getD j [] ∈ row := by
    simp [List.getD_eq_getElem?_getD, hlt]
  exact cellWidth_textLines (h.isPlainCell row hrow _ hcell)

end SetterReport.Table
