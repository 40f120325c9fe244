import Mathlib.Data.List.Forall2
import Mathlib.Data.List.GetD
import SetterReport.Proofs.TableLines

/-!
# Reading a table back

Both formats of a table are decoded.  A plain table is cut at fixed places, which the
widths of its columns give; a markdown table is split at its bars, and its cells at
the breaks in them.  Nothing of how tables are written is used in that.

For cells of plain characters both decodings are the lines of the cells, trailing
spaces apart: the markdown one row by row, and the plain one line by line, where a
row takes as many lines as its tallest cell.  The plain one is proved from one line
(`cutColumns_lineText`), the markdown one from one cell (`readCell_padTo`).

## Main result

* `decode_render` — both formats carry the same table, that of the input.
-/

namespace SetterReport.Table

open Text

/-! ## Decoding -/

/-- The lines of a cell as they are shown: without trailing spaces. -/
def shownLines (t : Text) : List Text :=
  (textLines t).map trimSpaces

/-- The pieces of a text between its line breaks. -/
def splitBreaks : Text → List Text
  | [] => [[]]
  | '<' :: 'b' :: 'r' :: '>' :: rest => [] :: splitBreaks rest
  | c :: rest => onFirstLine c (splitBreaks rest)

/-- The text without a space at its front. -/
def dropSpace : Text → Text
  | ' ' :: rest => rest
  | t => t

/-- The lines of a cell, from what stands between two bars. -/
def readCell (t : Text) : List Text :=
  (splitBreaks (trimSpaces (dropSpace t))).map trimSpaces

/-- The cells of a line of a markdown table; the line starts and ends with a bar. -/
def readBars (line : Text) : List (List Text) :=
  (parts '|' line).tail.dropLast.map readCell

/-- The rows of a markdown table: all its lines but the second one. -/
def decodeMarkdown (t : Text) : List (List (List Text)) :=
  ((lines t).eraseIdx 1).map readBars

/-- A line of a plain table, cut behind the width of each column and the space after it. -/
def cutColumns : List Nat → Text → List Text
  | [], _ => []
  | [_], line => [trimSpaces line]
  | w :: v :: widths, line =>
    trimSpaces (line.take (w + 1)) :: cutColumns (v :: widths) (line.drop (w + 1))

/-- The lines of a plain table, cut into columns. -/
def decodePlain (widths : List Nat) (t : Text) : List (List Text) :=
  (lines t).map (cutColumns widths)

/-- A row as lines: as many as its tallest cell has, blanks filling up the others. -/
def expand (row : List (List Text)) : List (List Text) :=
  (List.range ((row.map List.length).foldr max 0)).map fun i => row.map fun cell => cell.getD i []

/-! ## Plain tables -/

/-- Trailing spaces of a line are no part of any column. -/
theorem cutColumns_append_spaces (widths : List Nat) (line : Text) {s : Text}
    (hs : ∀ c ∈ s, c = ' ') : cutColumns widths (line ++ s) = cutColumns widths line := by
  induction widths generalizing line s with
  | nil => rfl
  | cons w widths ih =>
      cases widths with
      | nil =>
          show [trimSpaces (line ++ s)] = [trimSpaces line]
          rw [trimSpaces_append_spaces line hs]
      | cons v widths =>
          show trimSpaces ((line ++ s).take (w + 1)) ::
              cutColumns (v :: widths) ((line ++ s).drop (w + 1)) =
            trimSpaces (line.take (w + 1)) :: cutColumns (v :: widths) (line.drop (w + 1))
          rw [List.take_append, List.drop_append,
            trimSpaces_append_spaces _ fun c hc => hs c (List.mem_of_mem_take hc),
            ih _ fun c hc => hs c (List.mem_of_mem_drop hc)]

/-- A cell of printable characters that is not wider than its column. -/
def Fits (t : Text) (w : Nat) : Prop :=
  (∀ c ∈ t, IsShown c) ∧ t.length ≤ w

theorem Fits.length_padTo {t : Text} {w : Nat} (h : Fits t w) : (padTo w t).length = w := by
  have hw := h.2
  rw [padTo_of_shown h.1, List.length_append, copies, List.length_replicate]
  omega

/-- The columns of cells side by side are the cells. -/
theorem cutColumns_join {cells : List Text} {widths : List Nat}
    (h : List.Forall₂ Fits cells widths) :
    cutColumns widths (join [' '] (padded widths cells)) = cells.map trimSpaces := by
  induction h with
  | nil => rfl
  | @cons t w cells widths ht hrest ih =>
      cases hrest with
      | nil =>
          show [trimSpaces (join [' '] [padTo w t])] = [trimSpaces t]
          have hone : join [' '] [padTo w t] = padTo w t ++ [] := by
            simp [join]
          rw [hone, trimSpaces_padTo_append w _ (by simp)]
      | @cons u v cells widths hu hrest =>
          have hjoin : join [' '] (padded (w :: v :: widths) (t :: u :: cells)) =
              padTo w t ++ [' '] ++ join [' '] (padded (v :: widths) (u :: cells)) :=
            List.intercalate_cons_cons
          have hlength : (padTo w t ++ [' ']).length = w + 1 := by
            rw [List.length_append, ht.length_padTo]
            rfl
          rw [hjoin, cutColumns, List.take_left' hlength, List.drop_left' hlength, ih,
            trimSpaces_padTo_append w _ (by simp)]
          rfl

section Line

variable {cells : List Text} {widths : List Nat}

theorem isShown_of_mem_join (h : List.Forall₂ Fits cells widths) :
    ∀ c ∈ join [' '] (padded widths cells), IsShown c := by
  have hcells : ∀ t ∈ cells, ∀ c ∈ t, IsShown c := ((List.forall₂_and_left _ _).1 h).1
  intro c hc
  rcases mem_of_mem_join hc with hc | ⟨t, ht, hc⟩
  · obtain rfl : c = ' ' := by simpa using hc
    decide
  · rcases mem_of_mem_padded ht hc with rfl | ⟨u, hu, hc⟩
    · decide
    · exact hcells u hu c hc

/-- The columns of a line of a plain table are the cells in it. -/
theorem cutColumns_lineText (h : List.Forall₂ Fits cells widths) :
    cutColumns widths (lineText .plain widths cells) = cells.map trimSpaces := by
  obtain ⟨s, hsplit, hs⟩ := exists_trimEnd (isShown_of_mem_join h)
  have htrim := cutColumns_append_spaces widths (trimEnd (join [' '] (padded widths cells))) hs
  rw [← hsplit, cutColumns_join h] at htrim
  exact htrim.symm

end Line

section Plain

variable {headers row : Row} {rows : List Row}

/-- Every line of a row fits the columns of its table. -/
theorem forall₂_fits_lineCells (h : IsPlainTable headers rows) (hrow : row ∈ headers :: rows)
    (i : Nat) :
    List.Forall₂ Fits (lineCells (row.map textLines) i) (gridWidths headers rows) := by
  unfold lineCells gridWidths
  rw [List.map_map, List.forall₂_map_left_iff, List.forall₂_map_right_iff, List.forall₂_iff_get]
  refine ⟨by simp [h.length_of_mem hrow], ?_⟩
  intro j hj hj'
  have hcell : IsPlainCell row[j] := h.isPlainCell row hrow _ (List.getElem_mem hj)
  have hgetD : row.getD j [] = row[j] := by
    simp [List.getD_eq_getElem?_getD, hj]
  show Fits ((textLines row[j]).getD i [])
    (columnWidth (headers :: rows) (List.range headers.length)[j])
  rw [List.getElem_range]
  by_cases hi : i < (textLines row[j]).length
  · have hline : (textLines row[j]).getD i [] ∈ textLines row[j] := by
      simp [List.getD_eq_getElem?_getD, hi]
    refine ⟨fun c hc => (isShown_of_mem_textLines hcell hline hc).1, ?_⟩
    exact length_le_columnWidth hrow (hgetD ▸ hline)
  · have hblank : (textLines row[j]).getD i [] = [] := by
      simp [List.getD_eq_getElem?_getD, not_lt.1 hi]
    rw [hblank]
    exact ⟨by simp, Nat.zero_le _⟩

/-- The lines of a row are read as its cells side by side. -/
theorem map_cutColumns_rowLines (h : IsPlainTable headers rows) (hrow : row ∈ headers :: rows) :
    (rowLines .plain (gridWidths headers rows) (row.map textLines)).map
        (cutColumns (gridWidths headers rows)) = expand (row.map shownLines) := by
  have hheight : rowHeight (row.map textLines) =
      ((row.map shownLines).map List.length).foldr max 0 := by
    have hne := h.ne_nil_of_mem hrow
    cases row with
    | nil => exact absurd rfl hne
    | cons cell row => simp [rowHeight, shownLines, Function.comp_def]
  unfold rowLines expand
  rw [hheight, List.map_map]
  refine List.map_congr_left fun i _ => ?_
  rw [Function.comp_apply, cutColumns_lineText (forall₂_fits_lineCells h hrow i)]
  simp only [lineCells, List.map_map]
  refine List.map_congr_left fun cell _ => ?_
  exact (List.getD_map (textLines cell) [] trimSpaces).symm

/-- A plain table is read as its rows, each taking as many lines as its tallest cell. -/
theorem decodePlain_text (h : IsPlainTable headers rows) :
    decodePlain (gridWidths headers rows) (text .plain headers rows) =
      ((headers :: rows).map (List.map shownLines)).flatMap expand := by
  unfold decodePlain
  rw [lines_text_plain, shownWidths_textLines h, List.map_flatMap, List.flatMap_map]
  exact List.flatMap_congr fun row hrow => map_cutColumns_rowLines h hrow

end Plain

/-! ## Markdown tables -/

theorem splitBreaks_append {t : Text} (ht : '<' ∉ t) (rest : Text) :
    splitBreaks (t ++ lineBreak ++ rest) = t :: splitBreaks rest := by
  induction t with
  | nil =>
      show splitBreaks ('<' :: 'b' :: 'r' :: '>' :: rest) = _
      rw [splitBreaks]
  | cons c t ih =>
      have hc : c ≠ '<' := fun hc => ht (by simp [hc])
      rw [List.cons_append, List.cons_append, splitBreaks, ih fun h => ht (by simp [h])]
      · rfl
      · exact fun tail h => absurd h hc

theorem splitBreaks_of_not_mem {t : Text} (ht : '<' ∉ t) : splitBreaks t = [t] := by
  induction t with
  | nil => rw [splitBreaks]
  | cons c t ih =>
      have hc : c ≠ '<' := fun hc => ht (by simp [hc])
      rw [splitBreaks, ih fun h => ht (by simp [h])]
      · rfl
      · exact fun tail h => absurd h hc

/-- The pieces of joined lines are the lines, also when trailing spaces got lost. -/
theorem splitBreaks_join {ls : List Text} (hls : ∀ line ∈ ls, '<' ∉ line) (hne : ls ≠ []) :
    (splitBreaks (trimSpaces (join lineBreak ls))).map trimSpaces = ls.map trimSpaces := by
  induction ls with
  | nil => exact absurd rfl hne
  | cons line ls ih =>
      cases ls with
      | nil =>
          have hone : join lineBreak [line] = line := by
            simp [join]
          have htrim : '<' ∉ trimSpaces line := fun h =>
            hls line (by simp) ((List.rdropWhile_prefix _ _).subset h)
          have htwice : trimSpaces (trimSpaces line) = trimSpaces line :=
            List.rdropWhile_idempotent _ _
          rw [hone, splitBreaks_of_not_mem htrim]
          simp [htwice]
      | cons next ls =>
          have hjoin : join lineBreak (line :: next :: ls) =
              line ++ "<br".toList ++ '>' :: join lineBreak (next :: ls) := by
            unfold join
            rw [List.intercalate_cons_cons]
            simp [lineBreak]
          have hback : ∀ t : Text, line ++ "<br".toList ++ '>' :: t = line ++ lineBreak ++ t := by
            intro t
            simp [lineBreak]
          rw [hjoin, trimSpaces_append_cons _ (by decide), hback,
            splitBreaks_append (hls line (by simp)), List.map_cons,
            ih (fun l hl => hls l (by simp [hl])) (by simp)]
          rfl

/-- A plain cell in one line of markdown. -/
def joined (t : Text) : Text :=
  join lineBreak (textLines t)

/-- A cell of a markdown table is read as its lines. -/
theorem readCell_padTo {t : Text} (ht : IsPlainCell t) (w : Nat) :
    readCell (' ' :: (padTo w (joined t) ++ [' '])) = shownLines t := by
  have htag : ∀ line ∈ textLines t, '<' ∉ line := by
    intro line hline h
    exact (isShown_of_mem_textLines ht hline h).2.2 rfl
  show (splitBreaks (trimSpaces (padTo w (joined t) ++ [' ']))).map trimSpaces = _
  rw [trimSpaces_padTo_append w _ (by simp)]
  exact splitBreaks_join htag (textLines_ne_nil t)

/-- Fields between bars are what the bars join, with nothing before the first one and
nothing behind the last one. -/
theorem join_bar (fields : List Text) :
    join ['|'] ([] :: fields ++ [[]]) = barred fields := by
  induction fields with
  | nil => rfl
  | cons f fields ih =>
      have hrest : fields ++ [[]] ≠ [] := by simp
      unfold join at ih ⊢
      rw [List.cons_append, List.intercalate_cons_of_ne_nil hrest] at ih
      rw [List.cons_append, List.cons_append, List.intercalate_cons_cons,
        List.intercalate_cons_of_ne_nil hrest]
      simp only [barred, List.flatMap_cons, List.append_assoc, List.nil_append] at ih ⊢
      rw [ih]
      rfl

/-- What stands between the bars of a line. -/
theorem lineText_markdown_eq_join {widths : List Nat} {cells : List Text}
    (hne : padded widths cells ≠ []) :
    lineText .markdown widths cells =
      join ['|'] ([] :: ((padded widths cells).map fun t => ' ' :: (t ++ [' '])) ++ [[]]) := by
  rw [join_bar]
  exact bars_join hne

/-- The characters of a plain cell in one line. -/
theorem isShown_of_mem_joined {t : Text} {c : Char} (ht : IsPlainCell t) (hc : c ∈ joined t) :
    IsShown c ∧ c ≠ '|' := by
  rcases mem_of_mem_join hc with hc | ⟨line, hline, hc⟩
  · have hall : ∀ d ∈ lineBreak, IsShown d ∧ d ≠ '|' := by simp [lineBreak, IsShown]
    exact hall c hc
  · obtain ⟨hshown, hbar, -⟩ := isShown_of_mem_textLines ht hline hc
    exact ⟨hshown, hbar⟩

section Markdown

variable {widths : List Nat} {row : Row}

/-- The characters of the padded cells of a row. -/
theorem isShown_of_mem_padded (hplain : ∀ cell ∈ row, IsPlainCell cell) {t : Text} {c : Char}
    (ht : t ∈ padded widths (row.map joined)) (hc : c ∈ t) : IsShown c ∧ c ≠ '|' := by
  rcases mem_of_mem_padded ht hc with rfl | ⟨u, hu, hc⟩
  · decide
  · obtain ⟨cell, hcell, rfl⟩ := List.mem_map.1 hu
    exact isShown_of_mem_joined (hplain cell hcell) hc

/-- A line of a markdown table is read as its cells. -/
theorem readBars_lineText (hne : row ≠ []) (hlength : widths.length = row.length)
    (hplain : ∀ cell ∈ row, IsPlainCell cell) :
    readBars (lineText .markdown widths (row.map joined)) = row.map shownLines := by
  have hcount : (padded widths (row.map joined)).length = row.length := by
    simp [padded, hlength]
  have hpadded : padded widths (row.map joined) ≠ [] := by
    intro h
    rw [h] at hcount
    exact hne (List.length_eq_zero_iff.1 hcount.symm)
  have hbar : ∀ t ∈ ([] :: ((padded widths (row.map joined)).map fun t => ' ' :: (t ++ [' '])) ++
      [[]] : List Text), '|' ∉ t := by
    intro t ht hmem
    simp only [List.cons_append, List.mem_cons, List.mem_append, List.mem_map, List.not_mem_nil,
      or_false] at ht
    rcases ht with rfl | ⟨u, hu, rfl⟩ | rfl
    · simp at hmem
    · have hmem : '|' ∈ u := by simpa using hmem
      exact (isShown_of_mem_padded hplain hu hmem).2 rfl
    · simp at hmem
  unfold readBars parts
  rw [lineText_markdown_eq_join hpadded, join, List.splitOn_intercalate _ hbar (by simp),
    List.cons_append, List.tail_cons, List.dropLast_concat, List.map_map]
  refine List.ext_getElem (by simp [hcount]) ?_
  intro j hj hj'
  have hlt : j < row.length := by simpa using hj'
  simp only [List.getElem_map, padded, List.getElem_zipWith, Function.comp_apply]
  exact readCell_padTo (hplain _ (List.getElem_mem hlt)) _

end Markdown

/-- The line of a row of plain cells. -/
theorem markdownLine_eq {widths : List Nat} {row : Row} (hplain : ∀ cell ∈ row, IsPlainCell cell) :
    markdownLine widths row = lineText .markdown widths (row.map joined) := by
  unfold markdownLine
  rw [List.map_congr_left fun cell hcell => markdownCell_of_isPlainCell (hplain cell hcell)]
  rfl

/-- A markdown table is read as its rows. -/
theorem decodeMarkdown_text {headers : Row} {rows : List Row} (h : IsPlainTable headers rows) :
    decodeMarkdown (text .markdown headers rows) = (headers :: rows).map (List.map shownLines) := by
  have hcount : (shownWidths soleLine headers rows).length = headers.length :=
    length_shownWidths h.length_eq
  unfold decodeMarkdown
  rw [lines_text_markdown]
  generalize shownWidths soleLine headers rows = widths at hcount
  show ((headers :: rows).map (markdownLine widths)).map readBars = _
  rw [List.map_map]
  refine List.map_congr_left fun row hrow => ?_
  rw [Function.comp_apply, markdownLine_eq (h.isPlainCell row hrow)]
  exact readBars_lineText (h.ne_nil_of_mem hrow) (hcount.trans (h.length_of_mem hrow).symm)
    (h.isPlainCell row hrow)

/-! ## Both formats -/

/-- Both formats carry the same table.  Read back, the markdown table has the lines of
the cells of the input, and the plain table has these lines row by row, without the
spaces at their ends. -/
theorem decode_render {headers : Row} {rows : List Row} (h : IsPlainTable headers rows) :
    ∃ plain markdown,
      render .plain headers rows = .ok plain ∧ render .markdown headers rows = .ok markdown ∧
      decodeMarkdown markdown = (headers :: rows).map (List.map shownLines) ∧
      decodePlain (gridWidths headers rows) plain = (decodeMarkdown markdown).flatMap expand := by
  have hrender : ∀ format, render format headers rows = .ok (text format headers rows) := by
    intro format
    unfold render
    rw [firstWrong_eq_none h.length_eq]
  refine ⟨_, _, hrender .plain, hrender .markdown, decodeMarkdown_text h, ?_⟩
  rw [decodePlain_text h, decodeMarkdown_text h]

/-- A table with a cell of two lines, one that ends in a line feed, and an empty one. -/
theorem decode_render_lines :
    let headers := ["A".toList, "B".toList]
    let rows := [["x\ny ".toList, "1\n".toList], [[], " z".toList]]
    IsPlainTable headers rows ∧ ∃ plain markdown,
      render .plain headers rows = .ok plain ∧ render .markdown headers rows = .ok markdown ∧
      decodeMarkdown markdown =
        [[[['A']], [['B']]], [[['x'], ['y']], [['1']]], [[[]], [[' ', 'z']]]] ∧
      decodePlain [2, 2] plain =
        [[['A'], ['B']], [['x'], ['1']], [['y'], []], [[], [' ', 'z']]] := by
  intro headers rows
  have hplain : IsPlainTable headers rows := ⟨by decide, by decide, by decide⟩
  obtain ⟨plain, markdown, hp, hm, hmarkdown, hlines⟩ := decode_render hplain
  rw [hmarkdown] at hlines
  exact ⟨hplain, plain, markdown, hp, hm, hmarkdown.trans (by decide), hlines.trans (by decide)⟩

end SetterReport.Table
