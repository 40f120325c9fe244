import SetterReport.Proofs.ReaderSteps

/-!
# Documents in block style

A `Block` is a document as it is written in block style: a scalar on one line, a mapping with
an entry a line, or a sequence with a dash before each item.  What is nested is two columns
further in; a collection under a key starts on the next line, and one behind a dash on the
same line.

That the reader comes through a block is shown by induction on it, for the two places where a
block can stand in another one: behind a dash and behind the colon of a key (`IsRead`).  The
tokens it adds are those of the block, and at the end the blocks that what follows has left are
closed.

## Main result

* `scan_documentText` — the text of a document has the tokens of the document.
-/

namespace SetterReport.Yaml

/-- A document in block style. -/
inductive Block
  | scalar (s : Spelling)
  | mapping (entries : List (Text × Block))
  | sequence (items : List Block)

namespace Block

mutual

/-- The text of a block whose first line starts at a column. -/
def text : Block → (column : Nat) → Text
  | scalar s, _ => s.text
  | mapping entries, column => entriesText entries column
  | sequence items, column => itemsText items column
termination_by structural b => b

/-- The text of a block behind the colon of a key at a column. -/
def valueText : Block → (column : Nat) → Text
  | scalar s, _ => ' ' :: s.text
  | mapping entries, column => lineBreak (column + 2) ++ entriesText entries (column + 2)
  | sequence items, column => lineBreak (column + 2) ++ itemsText items (column + 2)
termination_by structural b => b

/-- The text of entries at a column. -/
def entriesText : List (Text × Block) → (column : Nat) → Text
  | [], _ => []
  | (k, b) :: rest, column =>
    k ++ ':' :: (valueText b column ++
      if rest.isEmpty then [] else lineBreak column ++ entriesText rest column)
termination_by structural entries => entries

/-- The text of items at a column. -/
def itemsText : List Block → (column : Nat) → Text
  | [], _ => []
  | b :: rest, column =>
    '-' :: ' ' :: (text b (column + 2) ++
      if rest.isEmpty then [] else lineBreak column ++ itemsText rest column)
termination_by structural items => items

end

mutual

/-- The tokens of a block. -/
def tokens : Block → List Token
  | scalar s => [s.token]
  | mapping entries => .blockMappingStart :: (entriesTokens entries ++ [.blockEnd])
  | sequence items => .blockSequenceStart :: (itemsTokens items ++ [.blockEnd])
termination_by structural b => b

/-- The tokens of entries. -/
def entriesTokens : List (Text × Block) → List Token
  | [] => []
  | (k, b) :: rest => .key :: .scalar k true :: .value :: (tokens b ++ entriesTokens rest)
termination_by structural entries => entries

/-- The tokens of items. -/
def itemsTokens : List Block → List Token
  | [] => []
  | b :: rest => .blockEntry :: (tokens b ++ itemsTokens rest)
termination_by structural items => items

end

/-- A block that can be written: no collection in it is empty, and all keys and scalars are
fit for a line. -/
inductive IsWritable : Block → Prop
  | scalar {s : Spelling} (h : s.isWritable = true) : IsWritable (scalar s)
  | mapping {entries : List (Text × Block)} (nonempty : entries ≠ [])
      (keys : ∀ e ∈ entries, LexState.isKey e.1 = true)
      (values : ∀ e ∈ entries, IsWritable e.2) : IsWritable (mapping entries)
  | sequence {items : List Block} (nonempty : items ≠ []) (inner : ∀ b ∈ items, IsWritable b) :
      IsWritable (sequence items)

/-! ## Reading blocks -/

open LexState

/-- Inside a block at a column, the reader comes through the text of another one: where a dash
stands before it, and where a key with its colon does. -/
structure IsRead (b : Block) : Prop where
  item : ∀ (tokens : List Token) {column : Nat} (columns : List Nat) {m : Mark} {tail w : Text}
    {k : Option Nat}, column < m.column → Follows tail k w → (∀ n ∈ k, n ≤ column) →
    ∃ last : Mark, Leads (ready tokens (column :: columns) true m (b.text m.column ++ tail))
      ((ready (b.tokens.reverse ++ tokens) (column :: columns) true (last.atNext k) w).unindent k)
  value : ∀ (tokens : List Token) {column : Nat} (columns : List Nat) {m : Mark} {tail w : Text}
    {k : Option Nat}, column < m.column → Follows tail k w → (∀ n ∈ k, n ≤ column) →
    ∃ last : Mark, Leads (ready tokens (column :: columns) false m (b.valueText column ++ tail))
      ((ready (b.tokens.reverse ++ tokens) (column :: columns) true (last.atNext k) w).unindent k)

theorem exists_cons_of_isKey {key : Text} (h : isKey key = true) :
    ∃ c t, key = c :: t ∧ isPlainToken (c :: t) = true ∧ c ≠ byteOrderMark := by
  cases key with
  | nil => simp [isKey, isPlainToken] at h
  | cons c t =>
      simp only [isKey, Bool.and_eq_true, bne_iff_ne, ne_eq] at h
      refine ⟨c, t, rfl, h.1.1.1, ?_⟩
      rintro rfl
      exact h.2 rfl

theorem blankNext_valueText (b : Block) (column : Nat) (tail : Text) :
    blankNext (b.valueText column ++ tail) = true := by
  cases b <;> rfl

/-- A block that can be written starts with a character that no gap has. -/
theorem isStart_text {b : Block} (hwritable : b.IsWritable) {m : Mark} (hm : 0 < m.column)
    (column : Nat) (tail : Text) :
    IsStart m (b.text column ++ tail) ∧ b.text column ++ tail ≠ [] := by
  cases hwritable with
  | scalar h =>
      rename_i s
      cases s with
      | plain t =>
          cases t with
          | nil => simp [Spelling.isWritable, isPlainToken] at h
          | cons c t => exact ⟨isStart_of_plain h (fun _ => hm) _, List.cons_ne_nil _ _⟩
      | quoted t =>
          refine ⟨?_, List.cons_ne_nil _ _⟩
          intro c hc
          obtain rfl : '\x27' = c := Option.some.inj hc
          exact ⟨by decide, by decide, by decide, fun _ => hm⟩
  | mapping nonempty keys values =>
      rename_i es
      cases es with
      | nil => exact absurd rfl nonempty
      | cons e rest =>
          obtain ⟨k, b⟩ := e
          obtain ⟨c, t, rfl, htoken, -⟩ := exists_cons_of_isKey (keys _ List.mem_cons_self)
          exact ⟨isStart_of_plain htoken (fun _ => hm) _, List.cons_ne_nil _ _⟩
  | sequence nonempty inner =>
      rename_i bs
      cases bs with
      | nil => exact absurd rfl nonempty
      | cons b rest =>
          refine ⟨?_, List.cons_ne_nil _ _⟩
          intro c hc
          obtain rfl : '-' = c := Option.some.inj hc
          exact ⟨by decide, by decide, by decide, fun _ => hm⟩

/-- Entries can start a line. -/
theorem follows_entries {es : List (Text × Block)} (hnonempty : es ≠ [])
    (hkeys : ∀ e ∈ es, isKey e.1 = true) (column : Nat) (tail : Text) :
    Follows (lineBreak column ++ (entriesText es column ++ tail)) (some column)
      (entriesText es column ++ tail) := by
  cases es with
  | nil => exact absurd rfl hnonempty
  | cons e rest =>
      obtain ⟨k, b⟩ := e
      obtain ⟨c, t, rfl, htoken, hmark⟩ := exists_cons_of_isKey (hkeys _ List.mem_cons_self)
      have hstart := isStart_of_plain htoken (m := {}) (fun h => absurd h hmark) []
      obtain ⟨hblank, hbreak, hcomment, -⟩ := hstart c rfl
      rw [entriesText, List.append_assoc, List.cons_append]
      exact Follows.line column hblank hbreak hcomment fun h => absurd h hmark

section Collections

variable {columns : List Nat} {m : Mark} {tail w : Text} {k : Option Nat}

/-- The reader comes through an entry, which may open its mapping. -/
theorem leads_entry {key : Text} (hkey : isKey key = true) {b : Block} (hread : b.IsRead)
    (tokens : List Token) (hopen : ∀ d ∈ columns.head?, d ≤ m.column)
    (hfollows : Follows tail k w) (hk : ∀ n ∈ k, n ≤ m.column) :
    ∃ last : Mark, Leads (ready tokens columns true m
        (key ++ ':' :: (b.valueText m.column ++ tail)))
      ((ready (b.tokens.reverse ++ .value :: .scalar key true :: .key ::
          openedTokens .blockMappingStart tokens columns m.column)
        (openedColumns columns m.column) true (last.atNext k) w).unindent k) := by
  obtain ⟨outer, houter⟩ := exists_openedColumns hopen
  have hcolumn : m.column < (m.advance (key.length + 1)).column := by
    simp only [Mark.advance]
    omega
  have hcolon := leads_key hkey tokens hopen (blankNext_valueText b m.column tail)
  rw [houter] at hcolon ⊢
  obtain ⟨last, hvalue⟩ := hread.value _ outer hcolumn hfollows hk
  exact ⟨last, hcolon.trans hvalue⟩

/-- The reader comes through the entries of a mapping, which may be open already. -/
theorem leads_entries {es : List (Text × Block)} (hnonempty : es ≠ [])
    (hkeys : ∀ e ∈ es, isKey e.1 = true) (hread : ∀ e ∈ es, IsRead e.2) (tokens : List Token)
    (hopen : ∀ d ∈ columns.head?, d ≤ m.column) (hfollows : Follows tail k w)
    (hk : ∀ n ∈ k, n ≤ m.column) :
    ∃ last : Mark, Leads (ready tokens columns true m (entriesText es m.column ++ tail))
      ((ready ((entriesTokens es).reverse ++
          openedTokens .blockMappingStart tokens columns m.column)
        (openedColumns columns m.column) true (last.atNext k) w).unindent k) := by
  induction es generalizing tokens columns m with
  | nil => exact absurd rfl hnonempty
  | cons e rest ih =>
      obtain ⟨key, b⟩ := e
      obtain ⟨hkey, hkeysRest⟩ := List.forall_mem_cons.1 hkeys
      obtain ⟨hreadHere, hreadRest⟩ := List.forall_mem_cons.1 hread
      cases rest with
      | nil =>
          obtain ⟨last, hentry⟩ := leads_entry hkey hreadHere tokens hopen hfollows hk
          exact ⟨last, by simpa [entriesText, entriesTokens] using hentry⟩
      | cons next rest =>
          have hnext : next :: rest ≠ [] := List.cons_ne_nil next rest
          have hfollowsNext := follows_entries hnext hkeysRest m.column tail
          obtain ⟨last, hentry⟩ := leads_entry hkey hreadHere tokens hopen hfollowsNext (by simp)
          obtain ⟨outer, houter⟩ := exists_openedColumns hopen
          have hsame : (last.atNext (some m.column)).column = m.column := by
            simp [Mark.atNext, Mark.nextLine, Mark.advance]
          generalize last.atNext (some m.column) = here at hentry hsame
          rw [houter] at hentry ⊢
          rw [unindent_of_open (by simp [pending])] at hentry
          have hopenHere : ∀ d ∈ (m.column :: outer).head?, d ≤ here.column := by simp [hsame]
          obtain ⟨final, hrest⟩ := ih hnext hkeysRest hreadRest
            (b.tokens.reverse ++ .value :: .scalar key true :: .key ::
              openedTokens .blockMappingStart tokens columns m.column) hopenHere
            (by simpa [hsame] using hk)
          rw [hsame, openedColumns_cons, openedTokens_cons] at hrest
          refine ⟨final, ?_⟩
          have hboth := hentry.trans hrest
          rw [entriesText, entriesTokens]
          simpa using hboth

/-- The reader comes through an item, which may open its sequence. -/
theorem leads_item {b : Block} (hwritable : b.IsWritable) (hread : b.IsRead)
    (tokens : List Token) (hopen : ∀ d ∈ columns.head?, d ≤ m.column)
    (hfollows : Follows tail k w) (hk : ∀ n ∈ k, n ≤ m.column) :
    ∃ last : Mark, Leads (ready tokens columns true m
        ('-' :: ' ' :: (b.text (m.column + 2) ++ tail)))
      ((ready (b.tokens.reverse ++ .blockEntry ::
          openedTokens .blockSequenceStart tokens columns m.column)
        (openedColumns columns m.column) true (last.atNext k) w).unindent k) := by
  obtain ⟨outer, houter⟩ := exists_openedColumns hopen
  have hcolumn : m.column < m.next.next.column := by
    simp only [Mark.next]
    omega
  have hstart := isStart_text hwritable (Nat.zero_lt_of_lt hcolumn) (m.column + 2) tail
  have hdash : Leads (ready tokens columns true m ('-' :: ' ' :: (b.text (m.column + 2) ++ tail)))
      _ := leads_dash hopen
  rw [houter] at hdash ⊢
  have hspace := leads_space (.blockEntry :: openedTokens .blockSequenceStart tokens columns m.column)
    true hstart.1 hstart.2 (by simpa using Nat.le_of_lt hcolumn : ∀ d ∈ (m.column :: outer).head?, _)
  obtain ⟨last, hitem⟩ := hread.item
    (.blockEntry :: openedTokens .blockSequenceStart tokens columns m.column) outer hcolumn hfollows hk
  exact ⟨last, hdash.trans (hspace.trans hitem)⟩

/-- Items can start a line. -/
theorem follows_items {bs : List Block} (hnonempty : bs ≠ []) (column : Nat) (tail : Text) :
    Follows (lineBreak column ++ (itemsText bs column ++ tail)) (some column)
      (itemsText bs column ++ tail) := by
  cases bs with
  | nil => exact absurd rfl hnonempty
  | cons b rest =>
      rw [itemsText, List.cons_append]
      exact Follows.line column (by decide) (by decide) (by decide) fun h => absurd h (by decide)

/-- The reader comes through the items of a sequence, which may be open already. -/
theorem leads_items {bs : List Block} (hnonempty : bs ≠ []) (hwritable : ∀ b ∈ bs, b.IsWritable)
    (hread : ∀ b ∈ bs, b.IsRead) (tokens : List Token) (hopen : ∀ d ∈ columns.head?, d ≤ m.column)
    (hfollows : Follows tail k w) (hk : ∀ n ∈ k, n ≤ m.column) :
    ∃ last : Mark, Leads (ready tokens columns true m (itemsText bs m.column ++ tail))
      ((ready ((itemsTokens bs).reverse ++
          openedTokens .blockSequenceStart tokens columns m.column)
        (openedColumns columns m.column) true (last.atNext k) w).unindent k) := by
  induction bs generalizing tokens columns m with
  | nil => exact absurd rfl hnonempty
  | cons b rest ih =>
      obtain ⟨hwritableHere, hwritableRest⟩ := List.forall_mem_cons.1 hwritable
      obtain ⟨hreadHere, hreadRest⟩ := List.forall_mem_cons.1 hread
      cases rest with
      | nil =>
          obtain ⟨last, hitem⟩ := leads_item hwritableHere hreadHere tokens hopen hfollows hk
          exact ⟨last, by simpa [itemsText, itemsTokens] using hitem⟩
      | cons next rest =>
          have hnext : next :: rest ≠ [] := List.cons_ne_nil next rest
          have hfollowsNext := follows_items hnext m.column tail
          obtain ⟨last, hitem⟩ := leads_item hwritableHere hreadHere tokens hopen hfollowsNext
            (by simp)
          obtain ⟨outer, houter⟩ := exists_openedColumns hopen
          have hsame : (last.atNext (some m.column)).column = m.column := by
            simp [Mark.atNext, Mark.nextLine, Mark.advance]
          generalize last.atNext (some m.column) = here at hitem hsame
          rw [houter] at hitem ⊢
          rw [unindent_of_open (by simp [pending])] at hitem
          have hopenHere : ∀ d ∈ (m.column :: outer).head?, d ≤ here.column := by simp [hsame]
          obtain ⟨final, hrest⟩ := ih hnext hwritableRest hreadRest
            (b.tokens.reverse ++ .blockEntry ::
              openedTokens .blockSequenceStart tokens columns m.column) hopenHere
            (by simpa [hsame] using hk)
          rw [hsame, openedColumns_cons, openedTokens_cons] at hrest
          refine ⟨final, ?_⟩
          have hboth := hitem.trans hrest
          rw [itemsText, itemsTokens]
          simpa using hboth

end Collections

/-- A collection that is read behind a dash is read behind a colon, on a line of its own. -/
theorem isRead_of_item {b : Block} (hwritable : b.IsWritable)
    (hvalue : ∀ column, b.valueText column = lineBreak (column + 2) ++ b.text (column + 2))
    (hitem : ∀ (tokens : List Token) {column : Nat} (columns : List Nat) {m : Mark}
      {tail w : Text} {k : Option Nat}, column < m.column → Follows tail k w →
      (∀ n ∈ k, n ≤ column) →
      ∃ last : Mark, Leads (ready tokens (column :: columns) true m (b.text m.column ++ tail))
        ((ready (b.tokens.reverse ++ tokens) (column :: columns) true (last.atNext k) w).unindent
          k)) : b.IsRead := by
  refine ⟨hitem, ?_⟩
  intro tokens column columns m tail w k _ hfollows hk
  have hsame : (m.atNext (some (column + 2))).column = column + 2 := by
    simp [Mark.atNext, Mark.nextLine, Mark.advance]
  obtain ⟨hstart, hnonempty⟩ := isStart_text hwritable (m := m.atNext (some (column + 2)))
    (by omega) (column + 2) tail
  have hopen : ∀ d ∈ (column :: columns).head?, d ≤ column + 2 := by simp
  have hbreak := leads_lineBreak tokens false hstart hnonempty hopen
  obtain ⟨last, hleads⟩ := hitem tokens columns (m := m.atNext (some (column + 2))) (by omega)
    hfollows hk
  rw [hsame] at hleads
  refine ⟨last, ?_⟩
  rw [hvalue, List.append_assoc]
  exact hbreak.trans hleads

/-- The reader comes through every block that can be written. -/
theorem IsWritable.isRead {b : Block} (h : b.IsWritable) : b.IsRead := by
  induction h with
  | scalar h =>
      rename_i s
      constructor
      · intro tokens column columns m tail w k hcolumn hfollows hk
        exact ⟨m.advance s.text.length, leads_scalar h true hfollows hk hcolumn⟩
      · intro tokens column columns m tail w k hcolumn hfollows hk
        have hnext : column < m.next.column := Nat.lt_succ_of_lt hcolumn
        obtain ⟨hstart, hnonempty⟩ := isStart_text (IsWritable.scalar h) (m := m.next)
          (by omega) 0 tail
        have hopen : ∀ d ∈ (column :: columns).head?, d ≤ m.next.column := by
          simpa using Nat.le_of_lt hnext
        have hspace := leads_space tokens false hstart hnonempty hopen
        exact ⟨m.next.advance s.text.length,
          hspace.trans (leads_scalar h false hfollows hk hnext)⟩
  | mapping nonempty keys values ih =>
      refine isRead_of_item (.mapping nonempty keys values) (fun _ => rfl) ?_
      intro tokens column columns m tail w k hcolumn hfollows hk
      have hdeeper : ∀ d ∈ (column :: columns).head?, d < m.column := by simpa using hcolumn
      obtain ⟨last, hentries⟩ := leads_entries nonempty keys ih tokens
        (fun d hd => Nat.le_of_lt (hdeeper d hd)) hfollows
        (fun n hn => Nat.le_of_lt (Nat.lt_of_le_of_lt (hk n hn) hcolumn))
      rw [openedTokens_of_lt hdeeper, openedColumns_of_lt hdeeper, unindent_ready_cons
        (fun n hn => Nat.lt_of_le_of_lt (hk n hn) hcolumn)] at hentries
      refine ⟨last, ?_⟩
      simpa [text, Block.tokens] using hentries
  | sequence nonempty inner ih =>
      refine isRead_of_item (.sequence nonempty inner) (fun _ => rfl) ?_
      intro tokens column columns m tail w k hcolumn hfollows hk
      have hdeeper : ∀ d ∈ (column :: columns).head?, d < m.column := by simpa using hcolumn
      obtain ⟨last, hitems⟩ := leads_items nonempty inner ih tokens
        (fun d hd => Nat.le_of_lt (hdeeper d hd)) hfollows
        (fun n hn => Nat.le_of_lt (Nat.lt_of_le_of_lt (hk n hn) hcolumn))
      rw [openedTokens_of_lt hdeeper, openedColumns_of_lt hdeeper, unindent_ready_cons
        (fun n hn => Nat.lt_of_le_of_lt (hk n hn) hcolumn)] at hitems
      refine ⟨last, ?_⟩
      simpa [text, Block.tokens] using hitems

/-! ## Whole texts -/

/-- A character that is allowed and is no line end that would be replaced. -/
def IsOrdinary (c : Char) : Prop :=
  isAllowed c = true ∧ c ≠ '\r' ∧ c ≠ '\u0085'

instance (c : Char) : Decidable (IsOrdinary c) :=
  inferInstanceAs (Decidable (_ ∧ _))

theorem unifyBreaks_of_isOrdinary {t : Text} (h : ∀ c ∈ t, IsOrdinary c) : unifyBreaks t = t := by
  induction t with
  | nil => rfl
  | cons c t ih =>
      obtain ⟨⟨-, hreturn, hnextLine⟩, hrest⟩ := List.forall_mem_cons.1 h
      have hkeep : (c == '\r' || c == '\u0085') = false := by simp [hreturn, hnextLine]
      rw [unifyBreaks]
      · rw [ih hrest, hkeep]
        rfl
      · intro rest hc _
        exact hreturn hc

theorem isOrdinary_of_line {c : Char} (hallowed : isAllowed c = true) (hbreak : isBreak c = false) :
    IsOrdinary c := by
  simp only [isBreak, Bool.or_eq_false_iff, beq_eq_false_iff_ne] at hbreak
  exact ⟨hallowed, hbreak.1.1.1.2, hbreak.1.1.2⟩

theorem isOrdinary_of_isQuotable {t : Text} (h : isQuotable t = true) : ∀ c ∈ t, IsOrdinary c := by
  intro c hc
  have hline := List.all_eq_true.1 h c hc
  simp only [Bool.and_eq_true, Bool.not_eq_true'] at hline
  exact isOrdinary_of_line hline.1 hline.2

theorem isOrdinary_of_spelling {s : Spelling} (h : s.isWritable = true) :
    ∀ c ∈ s.text, IsOrdinary c := by
  cases s with
  | plain t => exact isOrdinary_of_isQuotable (isQuotable_of_isPlainToken h)
  | quoted t =>
      have hquote : IsOrdinary '\x27' := by decide
      have hdoubled : ∀ c ∈ doubleQuotes t, IsOrdinary c := by
        intro c hc
        obtain ⟨d, hd, hc⟩ := List.mem_flatMap.1 hc
        have hordinary : IsOrdinary d := isOrdinary_of_isQuotable h d hd
        split at hc
        · simp only [List.mem_cons, List.not_mem_nil, or_false, or_self] at hc
          exact hc ▸ hquote
        · exact List.mem_singleton.1 hc ▸ hordinary
      rw [Spelling.text]
      refine List.forall_mem_cons.2 ⟨hquote, List.forall_mem_append.2 ⟨hdoubled, ?_⟩⟩
      simpa using hquote

theorem isOrdinary_space : IsOrdinary ' ' := by
  decide

theorem isOrdinary_lineBreak (column : Nat) : ∀ c ∈ lineBreak column, IsOrdinary c := by
  intro c hc
  simp only [lineBreak, spaces, List.mem_cons, List.mem_replicate] at hc
  rcases hc with rfl | ⟨-, rfl⟩
  · decide
  · exact isOrdinary_space

theorem isOrdinary_entriesText {es : List (Text × Block)} (column : Nat)
    (hkeys : ∀ e ∈ es, isKey e.1 = true)
    (hvalues : ∀ e ∈ es, ∀ c ∈ e.2.valueText column, IsOrdinary c) :
    ∀ c ∈ entriesText es column, IsOrdinary c := by
  induction es with
  | nil => simp [entriesText]
  | cons e rest ih =>
      obtain ⟨key, b⟩ := e
      obtain ⟨hkey, hkeysRest⟩ := List.forall_mem_cons.1 hkeys
      obtain ⟨hvalue, hvaluesRest⟩ := List.forall_mem_cons.1 hvalues
      have htoken : isPlainToken key = true := by
        simp only [isKey, Bool.and_eq_true] at hkey
        exact hkey.1.1.1
      have hcolon : IsOrdinary ':' := by decide
      rw [entriesText]
      refine List.forall_mem_append.2 ⟨?_, List.forall_mem_cons.2 ⟨hcolon,
        List.forall_mem_append.2 ⟨hvalue, ?_⟩⟩⟩
      · exact isOrdinary_of_isQuotable (isQuotable_of_isPlainToken htoken)
      · split
        · simp
        · exact List.forall_mem_append.2 ⟨isOrdinary_lineBreak column,
            ih hkeysRest hvaluesRest⟩

theorem isOrdinary_itemsText {bs : List Block} (column : Nat)
    (hitems : ∀ b ∈ bs, ∀ c ∈ b.text (column + 2), IsOrdinary c) :
    ∀ c ∈ itemsText bs column, IsOrdinary c := by
  induction bs with
  | nil => simp [itemsText]
  | cons b rest ih =>
      obtain ⟨hitem, hitemsRest⟩ := List.forall_mem_cons.1 hitems
      have hdash : IsOrdinary '-' := by decide
      rw [itemsText]
      refine List.forall_mem_cons.2 ⟨hdash, List.forall_mem_cons.2 ⟨isOrdinary_space,
        List.forall_mem_append.2 ⟨hitem, ?_⟩⟩⟩
      split
      · simp
      · exact List.forall_mem_append.2 ⟨isOrdinary_lineBreak column, ih hitemsRest⟩

theorem isOrdinary_text {b : Block} (h : b.IsWritable) (column : Nat) :
    (∀ c ∈ b.text column, IsOrdinary c) ∧ ∀ c ∈ b.valueText column, IsOrdinary c := by
  induction h generalizing column with
  | scalar h =>
      exact ⟨isOrdinary_of_spelling h,
        List.forall_mem_cons.2 ⟨isOrdinary_space, isOrdinary_of_spelling h⟩⟩
  | mapping nonempty keys values ih =>
      have hentries := fun column => isOrdinary_entriesText column keys fun e he => (ih e he column).2
      exact ⟨hentries column,
        List.forall_mem_append.2 ⟨isOrdinary_lineBreak _, hentries (column + 2)⟩⟩
  | sequence nonempty inner ih =>
      have hitems := fun column =>
        isOrdinary_itemsText column fun b hb => (ih b hb (column + 2)).1
      exact ⟨hitems column,
        List.forall_mem_append.2 ⟨isOrdinary_lineBreak _, hitems (column + 2)⟩⟩

/-- The text of a document that is a mapping. -/
def documentText (es : List (Text × Block)) : Text :=
  entriesText es 0 ++ ['\n']

/-- The tokens of a document are read from its text. -/
theorem scan_documentText {es : List (Text × Block)} (h : (mapping es).IsWritable) :
    Token.scan (documentText es) = some (mapping es).tokens := by
  have hordinary : ∀ c ∈ documentText es, IsOrdinary c := by
    have hend : IsOrdinary '\n' := by decide
    exact List.forall_mem_append.2 ⟨(isOrdinary_text h 0).1, by simpa using hend⟩
  have hallowed : (documentText es).all isAllowed = true :=
    List.all_eq_true.2 fun c hc => (hordinary c hc).1
  cases h with
  | mapping nonempty keys values =>
      have hnone : ∀ d ∈ ([] : List Nat).head?, d < ({} : Mark).column := by simp
      obtain ⟨last, hleads⟩ := leads_entries nonempty keys (fun e he => (values e he).isRead) []
        (fun d hd => Nat.le_of_lt (hnone d hd)) Follows.finish (by simp)
      rw [openedTokens_of_lt hnone, openedColumns_of_lt hnone, unindent_ready_cons (by simp),
        unindent_of_open (by simp [pending])] at hleads
      obtain ⟨n, hn, hrun⟩ := hleads
      have hend := run_ready_nil (.blockEnd :: ((entriesTokens es).reverse ++ [.blockMappingStart]))
        (last.atNext none) ((documentText es).length + 1 - n)
      have hfuel : (documentText es).length + 2 = n + ((documentText es).length + 1 - n + 1) := by
        have : n ≤ (documentText es).length := hn
        omega
      unfold Token.scan
      rw [if_pos hallowed]
      simp only [unifyBreaks_of_isOrdinary hordinary, hfuel]
      obtain ⟨final, hfinal, htokens⟩ := Option.map_eq_some_iff.1 hend
      rw [show LexState.run _ (LexState.initial (documentText es)) = _ from hrun _, hfinal]
      simp [htokens, Block.tokens]

end Block

end SetterReport.Yaml
