import Mathlib.Data.List.Forall2
import SetterReport.Proofs.TableGrid

/-!
# The lines of a table

A table is written as lines that are each ended.  Whatever its cells hold, these are the
lines that are read from it: the lines of a cell have no line feed in them, a plain line
is trimmed and a markdown line ends in a bar, so that no carriage return comes to stand
before the end of a line.

In the plain format a row takes as many lines as its tallest cell, and in the markdown
format always one.

## Main results

* `lines_text_plain` — the lines of a plain table, row by row.
* `lines_text_markdown` — the line of the header, the dashes, and a line for every row.
-/

namespace SetterReport.Table

open Text

/-! ## Joined texts -/

theorem mem_of_mem_join {sep : Text} {ts : List Text} {c : Char} (h : c ∈ join sep ts) :
    c ∈ sep ∨ ∃ t ∈ ts, c ∈ t := by
  unfold join at h
  induction ts with
  | nil => simp at h
  | cons t ts ih =>
      cases ts with
      | nil => exact Or.inr ⟨t, by simp, by simpa using h⟩
      | cons u us =>
          rw [List.intercalate_cons_cons, List.mem_append, List.mem_append] at h
          rcases h with (h | h) | h
          · exact Or.inr ⟨t, by simp, h⟩
          · exact Or.inl h
          · rcases ih h with h | ⟨v, hv, hc⟩
            · exact Or.inl h
            · exact Or.inr ⟨v, by simp [hv], hc⟩

/-- The cells of one line, padded to their columns. -/
def padded (widths : List Nat) (cells : List Text) : List Text :=
  List.zipWith (fun t w => padTo w t) cells widths

theorem mem_of_mem_padded {widths : List Nat} {cells : List Text} {t : Text} {c : Char}
    (ht : t ∈ padded widths cells) (hc : c ∈ t) : c = ' ' ∨ ∃ u ∈ cells, c ∈ u := by
  obtain ⟨i, hi, rfl⟩ := List.mem_iff_getElem.1 ht
  simp only [padded, List.getElem_zipWith, padTo, List.mem_append] at hc
  rcases hc with hc | hc
  · exact Or.inr ⟨_, List.getElem_mem _, hc⟩
  · exact Or.inl (eq_space_of_mem_copies hc)

/-- Padding and joining cells brings no line feed in. -/
theorem not_mem_join_padded {sep : Text} {widths : List Nat} {cells : List Text}
    (hsep : '\n' ∉ sep) (hcells : ∀ t ∈ cells, '\n' ∉ t) :
    '\n' ∉ join sep (padded widths cells) := by
  intro h
  rcases mem_of_mem_join h with h | ⟨t, ht, hc⟩
  · exact hsep h
  · rcases mem_of_mem_padded ht hc with hspace | ⟨u, hu, hc⟩
    · exact absurd hspace (by decide)
    · exact hcells u hu hc

/-! ## Rows as lines -/

/-- The lines of a row. -/
def rowLines (format : Format) (widths : List Nat) (row : List Cell) : List Text :=
  (List.range (rowHeight row)).map fun i => lineText format widths (lineCells row i)

theorem rowText_eq_ended (format : Format) (widths : List Nat) (row : List Cell) :
    rowText format widths row = ended (rowLines format widths row) := by
  unfold rowText ended rowLines
  rw [List.flatMap_map]

theorem ended_flatMap {α : Type} (f : α → List Text) (xs : List α) :
    ended (xs.flatMap f) = xs.flatMap fun x => ended (f x) :=
  List.flatMap_assoc

/-! ## Plain tables -/

/-- No line feed is in a line of a cell. -/
theorem newline_not_mem_textLines {t line : Text} (h : line ∈ textLines t) : '\n' ∉ line := by
  intro hc
  unfold textLines at h
  split at h
  · obtain rfl : line = [] := by simpa using h
    simp at hc
  · exact (of_mem_lines h hc).2 rfl

theorem newline_not_mem_lineCells {row : Row} {i : Nat} {t : Text}
    (h : t ∈ lineCells (row.map textLines) i) : '\n' ∉ t := by
  simp only [lineCells, List.map_map, List.mem_map, Function.comp_apply] at h
  obtain ⟨cell, -, rfl⟩ := h
  by_cases hi : i < (textLines cell).length
  · refine newline_not_mem_textLines (t := cell) ?_
    simp [List.getD_eq_getElem?_getD, hi]
  · simp [List.getD_eq_getElem?_getD, not_lt.1 hi]

/-- A trimmed text ends in no blank, and so in no carriage return. -/
theorem isLine_trimEnd {t : Text} (h : '\n' ∉ t) : IsLine (trimEnd t) := by
  refine ⟨fun hc => h ((List.rdropWhile_prefix isBlank t).subset hc), fun hlast => ?_⟩
  have hne : t.rdropWhile isBlank ≠ [] := by
    intro hnil
    have hempty : trimEnd t = [] := hnil
    simp [hempty] at hlast
  have hblank := List.rdropWhile_last_not isBlank t hne
  rw [(List.getLast_eq_iff_getLast?_eq_some hne).2 hlast] at hblank
  exact hblank (by decide)

theorem text_plain_eq (headers : Row) (rows : List Row) :
    text .plain headers rows = ended ((headers :: rows).flatMap fun row =>
      rowLines .plain (shownWidths textLines headers rows) (row.map textLines)) := by
  have hcells : cellLines .plain = textLines := funext cellLines_plain
  rw [ended_flatMap, List.flatMap_cons]
  unfold text shownWidths
  simp only [hcells, List.append_nil, rowText_eq_ended, List.flatMap_map]

/-- The lines of a plain table are those of its header and of its rows. -/
theorem lines_text_plain (headers : Row) (rows : List Row) :
    lines (text .plain headers rows) = (headers :: rows).flatMap fun row =>
      rowLines .plain (shownWidths textLines headers rows) (row.map textLines) := by
  rw [text_plain_eq, lines_ended]
  intro line hline
  obtain ⟨row, -, hline⟩ := List.mem_flatMap.1 hline
  obtain ⟨i, -, rfl⟩ := List.mem_map.1 hline
  exact isLine_trimEnd
    (not_mem_join_padded (by decide) fun t ht => newline_not_mem_lineCells ht)

/-! ## Markdown tables -/

/-- The line of a row of a markdown table. -/
def markdownLine (widths : List Nat) (row : Row) : Text :=
  lineText .markdown widths (row.map markdownCell)

/-- The line of dashes without its end. -/
def dashLine (widths : List Nat) : Text :=
  '|' :: widths.flatMap fun w => copies (w + 2) '-' ++ ['|']

theorem mem_dashLine {widths : List Nat} {c : Char} (h : c ∈ dashLine widths) :
    c = '|' ∨ c = '-' := by
  rcases List.mem_cons.1 h with rfl | h
  · exact Or.inl rfl
  · obtain ⟨w, -, h⟩ := List.mem_flatMap.1 h
    rcases List.mem_append.1 h with h | h
    · exact Or.inr (List.eq_of_mem_replicate h)
    · exact Or.inl (List.mem_singleton.1 h)

theorem isOneLine_dashLine (widths : List Nat) : IsOneLine (dashLine widths) := by
  intro c hc
  rcases mem_dashLine hc with rfl | rfl <;> decide

/-- In markdown a row takes one line, also one without cells. -/
theorem rowLines_markdown (widths : List Nat) (row : Row) :
    rowLines .markdown widths (row.map soleLine) = [markdownLine widths row] := by
  have hheight : rowHeight (row.map soleLine) = 1 := by
    have hones : ∀ cells : Row, ((cells.map soleLine).map List.length).foldr max 0 ≤ 1 := by
      intro cells
      induction cells with
      | nil => simp
      | cons t cells ih => exact Nat.max_le.2 ⟨Nat.le_refl 1, ih⟩
    cases row with
    | nil => rfl
    | cons t row => exact Nat.max_eq_left (hones row)
  unfold rowLines
  rw [hheight]
  simp [lineCells, markdownLine, soleLine, Function.comp_def]

theorem text_markdown_eq (headers : Row) (rows : List Row) :
    let widths := shownWidths soleLine headers rows
    text .markdown headers rows =
      ended (markdownLine widths headers :: dashLine widths :: rows.map (markdownLine widths)) := by
  intro widths
  have hcells : cellLines .markdown = soleLine := funext cellLines_markdown
  have hrow : ∀ row : Row, rowText .markdown widths (row.map soleLine) =
      markdownLine widths row ++ ['\n'] := by
    intro row
    rw [rowText_eq_ended, rowLines_markdown]
    simp [ended]
  have hdash : dashes widths = dashLine widths ++ ['\n'] := rfl
  unfold text
  simp only [hcells, List.flatMap_map]
  show rowText .markdown widths _ ++ dashes widths ++
    rows.flatMap (fun row => rowText .markdown widths (row.map soleLine)) = _
  simp only [hrow, hdash]
  simp [ended, List.flatMap_map]

theorem newline_not_mem_markdownCell (t : Text) : '\n' ∉ markdownCell t := by
  intro h
  rcases mem_of_mem_join h with h | ⟨line, hline, hc⟩
  · exact absurd h (by decide)
  · exact (of_mem_lines hline hc).2 rfl

theorem isLine_markdownLine (widths : List Nat) (row : Row) :
    IsLine (markdownLine widths row) := by
  have hcells : ∀ t ∈ row.map markdownCell, '\n' ∉ t := by
    intro t ht
    obtain ⟨cell, -, rfl⟩ := List.mem_map.1 ht
    exact newline_not_mem_markdownCell cell
  have hinner : '\n' ∉ join " | ".toList (padded widths (row.map markdownCell)) :=
    not_mem_join_padded (by decide) hcells
  show IsLine ("| ".toList ++ join " | ".toList (padded widths (row.map markdownCell)) ++
    " |".toList)
  constructor
  · simpa using hinner
  · rw [List.getLast?_append]
    simp

theorem isLine_of_mem_markdownLines {widths : List Nat} {headers : Row} {rows : List Row}
    {line : Text} (h : line ∈ markdownLine widths headers :: dashLine widths ::
      rows.map (markdownLine widths)) : IsLine line := by
  rcases List.mem_cons.1 h with rfl | h
  · exact isLine_markdownLine _ _
  · rcases List.mem_cons.1 h with rfl | h
    · exact (isOneLine_dashLine _).isLine
    · obtain ⟨row, -, rfl⟩ := List.mem_map.1 h
      exact isLine_markdownLine _ _

/-- The lines of a markdown table are that of its header, the dashes, and one for every
row. -/
theorem lines_text_markdown (headers : Row) (rows : List Row) :
    let widths := shownWidths soleLine headers rows
    lines (text .markdown headers rows) =
      markdownLine widths headers :: dashLine widths :: rows.map (markdownLine widths) := by
  intro widths
  rw [text_markdown_eq, lines_ended]
  exact fun line hline => isLine_of_mem_markdownLines hline

/-- What holds of the line of every row holds row by row of the lines of the table, the
dashes left out. -/
theorem forall₂_markdownLine {P : Row → Text → Prop} {widths : List Nat} {headers : Row}
    {rows : List Row} (h : ∀ row ∈ headers :: rows, P row (markdownLine widths row)) :
    List.Forall₂ P (headers :: rows)
      (markdownLine widths headers :: rows.map (markdownLine widths)) := by
  rw [← List.map_cons, List.forall₂_map_right_iff, List.forall₂_same]
  exact h

/-! ## Bars -/

/-- Fields with a bar before each and one at the end. -/
def barred (fields : List Text) : Text :=
  fields.flatMap ('|' :: ·) ++ ['|']

/-- A cell between two bars: a space before it and some behind it. -/
def framed (t : Text) (n : Nat) : Text :=
  ' ' :: (t ++ copies n ' ')

/-- The spaces behind the cells of a line, up to where the next column starts in a measure of
texts. -/
def gapsFor (μ : Text → Nat) (widths : List Nat) (cells : List Text) : List Nat :=
  List.zipWith (fun t w => w - μ t + 1) cells widths

theorem bars_join {ts : List Text} (hne : ts ≠ []) :
    "| ".toList ++ join " | ".toList ts ++ " |".toList =
      barred (ts.map fun t => ' ' :: (t ++ [' '])) := by
  induction ts with
  | nil => exact absurd rfl hne
  | cons t ts ih =>
      cases ts with
      | nil => simp [join, barred]
      | cons u ts =>
          have hrest := ih (by simp)
          simp only [join, barred, List.map_cons, List.flatMap_cons] at hrest ⊢
          rw [List.intercalate_cons_cons]
          simpa using hrest

/-- A line of a markdown table with columns: its cells between bars. -/
theorem lineText_markdown_eq_barred {widths : List Nat} {cells : List Text} (hne : cells ≠ [])
    (hlength : cells.length = widths.length) :
    lineText .markdown widths cells =
      barred (List.zipWith framed cells (gapsFor width widths cells)) := by
  have hpadded : padded widths cells ≠ [] := by
    have hpos := List.length_pos_iff.2 hne
    intro hnil
    have hzero := congrArg List.length hnil
    simp only [padded, List.length_zipWith, List.length_nil] at hzero
    omega
  have hfields : (padded widths cells).map (fun t => ' ' :: (t ++ [' '])) =
      List.zipWith framed cells (gapsFor width widths cells) := by
    refine List.ext_getElem (by simp [padded, gapsFor]) ?_
    intro j hj hj'
    simp [padded, gapsFor, framed, padTo, copies, List.replicate_succ']
  rw [← hfields]
  exact bars_join hpadded

/-! ## Rows of the right length -/

theorem firstWrong_eq_none {rows : List Row} {n : Nat} (h : ∀ row ∈ rows, row.length = n)
    (i : Nat) : firstWrong n i rows = none := by
  induction rows generalizing i with
  | nil => rfl
  | cons row rows ih =>
      rw [firstWrong, if_pos (h row (by simp))]
      exact ih (fun r hr => h r (by simp [hr])) (i + 1)

/-- A table whose rows are as long as its header is written. -/
theorem render_eq_ok {headers : Row} {rows : List Row}
    (h : ∀ row ∈ rows, row.length = headers.length) (format : Format) :
    render format headers rows = .ok (text format headers rows) := by
  unfold render
  rw [firstWrong_eq_none h]

end SetterReport.Table
