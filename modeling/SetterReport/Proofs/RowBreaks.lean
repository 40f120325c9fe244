import Mathlib.Algebra.Ring.Nat
import SetterReport.Proofs.TableLines

/-!
# What breaks a row of a markdown table

To a reader of markdown a line ends at a line feed, at a carriage return, and at the two
together.  A row is written with one line feed, at its end; whether it is one line is a
matter of the carriage returns in it.

The line endings of a cell are replaced by breaks, and with them go the carriage returns
that stand directly before a line feed.  All others stay: what counts is the number of
*lone* returns (`count_markdownCell`).  None of them comes to stand before the line feed
of its row, so that each of them is one more break.

## Main result

* `physicalLines_render` — the number of lines of a markdown table: that of its rows, the
  dashes, and one more for every lone return in its cells.
-/

namespace SetterReport

namespace Text

/-! ## Line endings of markdown -/

/-- The lines of a text, where a line feed, a carriage return, and a carriage return with
a line feed behind it end a line. -/
def physicalLines : Text → List Text
  | [] => []
  | '\n' :: rest => [] :: physicalLines rest
  | '\r' :: '\n' :: rest => [] :: physicalLines rest
  | '\r' :: rest => [] :: physicalLines rest
  | c :: rest => onFirstLine c (physicalLines rest)

/-- The number of carriage returns that have no line feed directly behind them. -/
def loneReturns : Text → Nat
  | [] => 0
  | '\r' :: '\n' :: rest => loneReturns rest
  | '\r' :: rest => loneReturns rest + 1
  | _ :: rest => loneReturns rest

theorem physicalLines_return {t : Text} (h : t.head? ≠ some '\n') :
    physicalLines ('\r' :: t) = [] :: physicalLines t := by
  rw [physicalLines]
  rintro rest rfl
  exact h rfl

theorem loneReturns_return {t : Text} (h : t.head? ≠ some '\n') :
    loneReturns ('\r' :: t) = loneReturns t + 1 := by
  rw [loneReturns]
  rintro rest rfl
  exact h rfl

theorem physicalLines_cons {c : Char} (hc : c ≠ '\n' ∧ c ≠ '\r') (t : Text) :
    physicalLines (c :: t) = onFirstLine c (physicalLines t) := by
  rw [physicalLines]
  · exact fun h => hc.1 h
  · exact fun _ h _ => absurd h hc.2
  · exact fun h => hc.2 h

theorem loneReturns_cons {c : Char} (hc : c ≠ '\r') (t : Text) :
    loneReturns (c :: t) = loneReturns t := by
  rw [loneReturns]
  · exact fun _ h _ => absurd h hc
  · exact fun h => hc h

theorem loneReturns_lineEnding {t : Text} (h : t.head? = some '\n') :
    loneReturns ('\r' :: t) = loneReturns t := by
  obtain ⟨rest, rfl⟩ := List.head?_eq_some_iff.1 h
  rw [loneReturns, loneReturns_cons (by decide)]

theorem length_onFirstLine {c : Char} {ls : List Text} (h : 0 < ls.length) :
    (onFirstLine c ls).length = ls.length := by
  cases ls with
  | nil => simp at h
  | cons line ls => rfl

/-- A line that is ended has one line ending, and one more for each carriage return. -/
theorem length_physicalLines_append {line : Text} (h : IsLine line) (rest : Text) :
    (physicalLines (line ++ '\n' :: rest)).length =
      line.count '\r' + 1 + (physicalLines rest).length := by
  induction line with
  | nil =>
      rw [List.nil_append, physicalLines, List.length_cons, List.count_nil]
      omega
  | cons c line ih =>
      have hrest := ih h.tail
      by_cases hreturn : c = '\r'
      · subst hreturn
        rw [List.cons_append, physicalLines_return (h.head?_append_ne _), List.length_cons, hrest,
          List.count_cons_self]
        omega
      · have hnewline : c ≠ '\n' := fun hc => h.1 (by simp [hc])
        rw [List.cons_append, physicalLines_cons ⟨hnewline, hreturn⟩, length_onFirstLine (by omega),
          hrest, List.count_cons_of_ne hreturn]

/-- Ended lines have as many line endings as there are lines, and one more for each
carriage return. -/
theorem length_physicalLines_ended {ls : List Text} (h : ∀ line ∈ ls, IsLine line) :
    (physicalLines (ended ls)).length = ls.length + (ended ls).count '\r' := by
  induction ls with
  | nil => rfl
  | cons line ls ih =>
      have hrest := ih fun l hl => h l (by simp [hl])
      have hcons : ended (line :: ls) = line ++ '\n' :: ended ls := by
        simp [ended]
      rw [hcons, length_physicalLines_append (h line (by simp)), hrest, List.length_cons,
        List.count_append, List.count_cons_of_ne (by decide)]
      omega

theorem count_ended {c : Char} (hc : c ≠ '\n') (ls : List Text) :
    (ended ls).count c = (ls.map (List.count c)).sum := by
  rw [ended, List.count_flatMap]
  congr 1
  exact List.map_congr_left fun line _ => by simp [hc.symm]

/-! ## Lone returns -/

/-- What holds behind every occurrence of a character in a text, from its first one on. -/
theorem forall_behind_cons_iff {P : Text → Prop} {c d : Char} {t : Text} :
    (∀ a b, c :: t = a ++ d :: b → P b) ↔ (c = d → P t) ∧ ∀ a b, t = a ++ d :: b → P b := by
  constructor
  · intro h
    refine ⟨fun hc => h [] t (by simp [hc]), fun a b hsplit => h (c :: a) b (by simp [hsplit])⟩
  · rintro ⟨hfirst, hrest⟩ a b hsplit
    cases a with
    | nil =>
        obtain ⟨rfl, rfl⟩ : c = d ∧ t = b := by simpa using hsplit
        exact hfirst rfl
    | cons e a =>
        obtain ⟨rfl, rfl⟩ : c = e ∧ t = a ++ d :: b := by simpa using hsplit
        exact hrest a b rfl

/-- No return is alone when every one is the first half of a line ending. -/
theorem loneReturns_eq_zero_iff (t : Text) :
    loneReturns t = 0 ↔ ∀ a b, t = a ++ '\r' :: b → b.head? = some '\n' := by
  induction t with
  | nil => simp [loneReturns]
  | cons c t ih =>
      rw [forall_behind_cons_iff, ← ih]
      by_cases hreturn : c = '\r'
      · subst hreturn
        by_cases hnext : t.head? = some '\n'
        · simp [loneReturns_lineEnding hnext, hnext]
        · simp [loneReturns_return hnext, hnext]
      · simp [loneReturns_cons hreturn, hreturn]

theorem count_join_nil_cons {c : Char} {sep : Text} (hsep : c ∉ sep) (ls : List Text) :
    (join sep ([] :: ls)).count c = (join sep ls).count c := by
  rw [join_nil_cons]
  split
  · rename_i hnil
    rw [hnil]
    rfl
  · rw [List.count_append, List.count_eq_zero_of_not_mem hsep, Nat.zero_add]

/-- The returns left in the lines of a text, whatever stands between them, are the lone
ones. -/
theorem count_join_lines {sep : Text} (hsep : '\r' ∉ sep) (t : Text) :
    (join sep (lines t)).count '\r' = loneReturns t := by
  fun_induction lines t with
  | case1 => rfl
  | case2 rest ih => rw [count_join_nil_cons hsep, ih, loneReturns_cons (by decide)]
  | case3 rest ih => rw [count_join_nil_cons hsep, ih, loneReturns]
  | case4 c rest hnewline hreturn ih =>
      rw [join_onFirstLine]
      by_cases hc : c = '\r'
      · subst hc
        have hnext : rest.head? ≠ some '\n' := by
          intro hhead
          obtain ⟨tail, rfl⟩ := List.head?_eq_some_iff.1 hhead
          exact hreturn tail rfl rfl
        rw [List.count_cons_self, ih, loneReturns_return hnext]
      · rw [List.count_cons_of_ne hc, ih, loneReturns_cons hc]

end Text

namespace Table

open Text

/-! ## Returns in a row -/

theorem head?_escapeBars {t : Text} : (escapeBars t).head? = some '\n' ↔ t.head? = some '\n' := by
  cases t with
  | nil => rfl
  | cons c t =>
      by_cases hbar : c = '|'
      · simp [escapeBars, Text.replace, hbar]
      · simp [escapeBars, Text.replace, hbar]

/-- Escaping bars leaves the line endings alone. -/
theorem loneReturns_escapeBars (t : Text) : loneReturns (escapeBars t) = loneReturns t := by
  induction t with
  | nil => rfl
  | cons c t ih =>
      have hcons : escapeBars (c :: t) = (if c = '|' then ['\\', '|'] else [c]) ++ escapeBars t := rfl
      rw [hcons]
      by_cases hreturn : c = '\r'
      · subst hreturn
        show loneReturns ('\r' :: escapeBars t) = _
        by_cases hnext : t.head? = some '\n'
        · rw [loneReturns_lineEnding hnext, loneReturns_lineEnding (head?_escapeBars.2 hnext), ih]
        · rw [loneReturns_return hnext, loneReturns_return (mt head?_escapeBars.1 hnext), ih]
      · rw [loneReturns_cons hreturn, ← ih]
        split
        · exact (loneReturns_cons (by decide) _).trans (loneReturns_cons (by decide) _)
        · exact loneReturns_cons hreturn _

theorem count_markdownCell (t : Text) : (markdownCell t).count '\r' = loneReturns t := by
  rw [markdownCell, count_join_lines (by decide), loneReturns_escapeBars]

/-- Bars and spaces aside, the characters of a row are those of its cells. -/
theorem count_barred_framed {c : Char} (hc : c ≠ '|' ∧ c ≠ ' ') (cells : List Text)
    {gaps : List Nat} (hlength : cells.length = gaps.length) :
    (barred (List.zipWith framed cells gaps)).count c = (cells.map (List.count c)).sum := by
  induction cells generalizing gaps with
  | nil => simp [barred, hc.1.symm]
  | cons t cells ih =>
      cases gaps with
      | nil => simp at hlength
      | cons n gaps =>
          have hlength : cells.length = gaps.length := by simpa using hlength
          have hrest := ih hlength
          have hshape : barred (List.zipWith framed (t :: cells) (n :: gaps)) =
              '|' :: ' ' :: (t ++ copies n ' ' ++ barred (List.zipWith framed cells gaps)) := by
            simp [barred, framed]
          rw [hshape, List.count_cons_of_ne hc.1.symm, List.count_cons_of_ne hc.2.symm,
            List.count_append, List.count_append, hrest]
          simp [copies, List.count_replicate, hc.2.symm]

theorem count_markdownLine {widths : List Nat} {row : Row} (hlength : row.length = widths.length) :
    (markdownLine widths row).count '\r' = (row.map loneReturns).sum := by
  by_cases hne : row = []
  · subst hne
    rfl
  · unfold markdownLine
    rw [lineText_markdown_eq_barred (by simpa using hne) (by simpa using hlength),
      count_barred_framed (by decide) _ (by simp [gapsFor, hlength]), List.map_map]
    congr 1
    exact List.map_congr_left fun cell _ => count_markdownCell cell

/-- The lone returns in the cells of a row. -/
def rowReturns (row : Row) : Nat :=
  (row.map loneReturns).sum

theorem sum_rowReturns_eq_zero_iff (table : List Row) :
    (table.map rowReturns).sum = 0 ↔
      ∀ row ∈ table, ∀ cell ∈ row, ∀ a b, cell = a ++ '\r' :: b → b.head? = some '\n' := by
  simp only [List.sum_eq_zero_iff_forall_eq_nat, List.forall_mem_map, rowReturns,
    loneReturns_eq_zero_iff]

section Markdown

variable {headers : Row} {rows : List Row}

/-- How many lines a markdown table has.  A row is one line, and one more for every lone
return in its cells; so the table has a line for the header, one for the dashes and one
for every row exactly when every return in it belongs to the ending of a line. -/
theorem physicalLines_render (h : ∀ row ∈ rows, row.length = headers.length) :
    ∃ out header dash body,
      render .markdown headers rows = .ok out ∧ lines out = header :: dash :: body ∧
      List.Forall₂ (fun row line => (physicalLines (line ++ ['\n'])).length = rowReturns row + 1)
        (headers :: rows) (header :: body) ∧
      out.count '\r' = ((headers :: rows).map rowReturns).sum ∧
      (physicalLines out).length = rows.length + 2 + ((headers :: rows).map rowReturns).sum ∧
      ((physicalLines out).length = rows.length + 2 ↔
        ∀ row ∈ headers :: rows, ∀ cell ∈ row,
          ∀ a b, cell = a ++ '\r' :: b → b.head? = some '\n') := by
  have hall : ∀ row ∈ headers :: rows, row.length = headers.length := by
    simpa using h
  have hcount : (shownWidths soleLine headers rows).length = headers.length :=
    length_shownWidths h
  have hlines := lines_text_markdown headers rows
  have htext := text_markdown_eq headers rows
  generalize shownWidths soleLine headers rows = widths at *
  have hrow : ∀ row ∈ headers :: rows, (markdownLine widths row).count '\r' = rowReturns row :=
    fun row hmem => count_markdownLine ((hall row hmem).trans hcount.symm)
  have hdash : (dashLine widths).count '\r' = 0 :=
    List.count_eq_zero_of_not_mem fun hmem => (isOneLine_dashLine widths _ hmem).2 rfl
  have htotal : (text .markdown headers rows).count '\r' =
      ((headers :: rows).map rowReturns).sum := by
    rw [htext, count_ended (by decide), List.map_cons, List.map_cons, hdash, List.map_map,
      hrow headers (by simp), List.map_cons, List.sum_cons, List.sum_cons, List.sum_cons,
      Nat.zero_add]
    congr 2
    exact List.map_congr_left fun row hmem => hrow row (List.mem_cons_of_mem _ hmem)
  have hlength : (physicalLines (text .markdown headers rows)).length =
      rows.length + 2 + ((headers :: rows).map rowReturns).sum := by
    rw [← htotal, htext,
      length_physicalLines_ended fun line hline => isLine_of_mem_markdownLines hline]
    simp
  refine ⟨_, _, _, _, render_eq_ok h .markdown, hlines, forall₂_markdownLine ?_, htotal,
    hlength, ?_⟩
  · intro row hmem
    rw [length_physicalLines_append (isLine_markdownLine widths row) [], hrow row hmem]
    rfl
  · rw [← sum_rowReturns_eq_zero_iff, hlength]
    omega

end Markdown

/-- Three returns are alone: one in a cell, one before a line ending, one at the end. -/
theorem physicalLines_render_returns :
    let headers := [['A']]
    let rows := [["a\rb".toList], ["x\r\r\ny\r".toList], ["p\r\nq\n".toList]]
    (∀ row ∈ rows, row.length = headers.length) ∧
      ∃ out header dash body,
        render .markdown headers rows = .ok out ∧ lines out = header :: dash :: body ∧
        List.Forall₂ (fun row line => (physicalLines (line ++ ['\n'])).length = rowReturns row + 1)
          (headers :: rows) (header :: body) ∧
        out.count '\r' = 3 ∧ (physicalLines out).length = 8 := by
  intro headers rows
  have h : ∀ row ∈ rows, row.length = headers.length := by decide
  obtain ⟨out, header, dash, body, hout, hlines, hrows, hreturns, hlength, -⟩ :=
    physicalLines_render h
  exact ⟨h, out, header, dash, body, hout, hlines, hrows, hreturns.trans (by decide),
    hlength.trans (by decide)⟩

/-- A cell with a return in it breaks its row: the table of one row has four lines. -/
theorem loneReturn_breaks_row :
    let headers := [['A']]
    let rows := [["a\rb".toList]]
    (∀ row ∈ rows, row.length = headers.length) ∧
      ∃ out, render .markdown headers rows = .ok out ∧
        (physicalLines out).length ≠ rows.length + 2 ∧ '\r' ∈ out := by
  intro headers rows
  have h : ∀ row ∈ rows, row.length = headers.length := by decide
  exact ⟨h, _, render_eq_ok h .markdown, by decide +kernel, by decide +kernel⟩

end Table

end SetterReport
