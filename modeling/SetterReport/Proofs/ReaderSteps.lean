import SetterReport.Proofs.LineScalar

/-!
# The reader of tokens in block style

The reader keeps a cursor, the tokens so far, the columns of the open blocks, and where a key
may have begun.  Outside brackets, and where no key is pending, its state is `ready`: what it
does next depends on the tokens, the open columns, whether a key may begin, and what is left.

`Leads` says that one state comes to another by steps that take at least one character each, so
that the steps of a whole text are no more than its characters.  The lemmas here lead the reader
over one thing each: a scalar with the line end behind it, a key with its colon, a dash, a gap.
Where a line is less indented than the one before, the blocks it leaves are closed
(`leads_of_settled`), each with a token of its own (`unindent_ready_cons`).
-/

namespace SetterReport.Yaml

namespace LexState

/-- The reader outside brackets, where a key may have begun. -/
def pending (candidate : Option Candidate) (tokens : List Token) (columns : List Nat)
    (allowsKey : Bool) (m : Mark) (w : Text) : LexState :=
  ⟨⟨m, w⟩, tokens, tokens.length, [candidate], columns, allowsKey⟩

/-- The reader outside brackets, where no key has begun. -/
abbrev ready : List Token → List Nat → Bool → Mark → Text → LexState :=
  pending none

/-- The column that blocks are closed to before what is left; there is none at the end. -/
def level (m : Mark) (w : Text) : Option Nat :=
  if w.isEmpty then none else some m.column

/-- What is left starts with a character that no gap has. -/
def IsStart (m : Mark) (w : Text) : Prop :=
  ∀ c ∈ w.head?, isBlank c = false ∧ isBreak c = false ∧ c ≠ '#' ∧
    (c = byteOrderMark → 0 < m.column)

/-- One state comes to another in some steps, which take at least one character each. -/
def Leads (s s' : LexState) : Prop :=
  ∃ n, n + s'.cursor.rest.length ≤ s.cursor.rest.length ∧
    ∀ fuel, s.run (n + fuel) = s'.run fuel

namespace Leads

theorem refl (s : LexState) : Leads s s :=
  ⟨0, by omega, fun fuel => by rw [Nat.zero_add]⟩

theorem trans {s t r : LexState} (hst : Leads s t) (htr : Leads t r) : Leads s r := by
  obtain ⟨n, hn, hrunN⟩ := hst
  obtain ⟨k, hk, hrunK⟩ := htr
  refine ⟨n + k, by omega, ?_⟩
  intro fuel
  rw [Nat.add_assoc, hrunN, hrunK]

end Leads

/-! ## Gaps -/

theorem skipGapFrom_of_isStart {m : Mark} {w : Text} (hw : IsStart m w) (allowsKey : Bool) :
    skipGapFrom false false allowsKey m w = (allowsKey, ⟨m, w⟩) := by
  cases w with
  | nil => rfl
  | cons c rest =>
      obtain ⟨hblank, hbreak, hcomment, hmark⟩ := hw c rfl
      have hspace : (c == ' ') = false ∧ (c == '\t') = false := by
        simpa [isBlank] using hblank
      have hmark : (c == byteOrderMark && m.column == 0) = false := by
        by_cases hc : c = byteOrderMark
        · simp [Nat.ne_of_gt (hmark hc)]
        · simp [hc]
      rw [skipGapFrom]
      simp [hbreak, hcomment, hmark, hspace.1, hspace.2]

theorem skipGapFrom_space {m : Mark} {w : Text} (hw : IsStart m.next w) (allowsKey : Bool) :
    skipGapFrom false false allowsKey m (' ' :: w) = (allowsKey, ⟨m.next, w⟩) := by
  have hbreak : isBreak ' ' = false := by decide
  rw [skipGapFrom]
  simp [hbreak, skipGapFrom_of_isStart hw]

theorem skipGapFrom_spaces (n : Nat) (rest : Text) (allowsKey : Bool) (m : Mark) :
    skipGapFrom false false allowsKey m (spaces n ++ rest) =
      skipGapFrom false false allowsKey (m.advance n) rest := by
  induction n generalizing m with
  | zero => rfl
  | succ n ih =>
      have hbreak : isBreak ' ' = false := by decide
      show skipGapFrom false false allowsKey m (' ' :: (spaces n ++ rest)) = _
      rw [skipGapFrom, ← Mark.next_advance, ← ih m.next]
      simp [hbreak]

theorem isStart_of_follows {tail w : Text} {column : Option Nat} (h : Follows tail column w)
    (m : Mark) : IsStart (m.atNext column) w := by
  cases h with
  | finish => simp [IsStart]
  | line k hblank hbreak hcomment hmark =>
      simpa [IsStart, hblank, hbreak, hcomment, Mark.atNext, Mark.nextLine, Mark.advance] using hmark

theorem length_of_follows {tail w : Text} {column : Option Nat} (h : Follows tail column w) :
    w.length ≤ tail.length := by
  cases h with
  | finish => simp
  | line k _ _ _ _ =>
      simp only [lineBreak, List.length_append, List.length_cons]
      omega

theorem level_atNext {tail w : Text} {column : Option Nat} (h : Follows tail column w) (m : Mark) :
    level (m.atNext column) w = column := by
  cases h with
  | finish => rfl
  | line k _ _ _ _ => simp [level, Mark.atNext, Mark.nextLine, Mark.advance]

/-- At the end of a line the reader goes on to what follows, where a key may stand. -/
theorem skipGapFrom_follows {tail w : Text} {column : Option Nat} (h : Follows tail column w)
    (allowsKey : Bool) (m : Mark) :
    skipGapFrom false false allowsKey m tail = (true, ⟨m.atNext column, w⟩) := by
  have hbreakLine : isBreak '\n' = true := by decide
  have hstart := isStart_of_follows h m
  cases h with
  | finish => simp [skipGapFrom, hbreakLine, Mark.atNext]
  | line k _ _ _ _ =>
      rw [lineBreak, List.cons_append, skipGapFrom, if_pos hbreakLine, skipGapFrom_spaces,
        skipGapFrom_of_isStart (by simpa [Mark.atNext] using hstart)]
      simp [Mark.atNext]

/-! ## Steps -/

/-- Blocks that are not right of a level stay open. -/
theorem unindent_of_open {s : LexState} {k : Option Nat}
    (h : ∀ c ∈ s.columns.head?, k.all (· < c) = false) : s.unindent k = s := by
  unfold unindent
  split
  · rfl
  · cases hcolumns : s.columns with
    | nil => simp [closeColumns, ← hcolumns]
    | cons c rest =>
        have hopen : k.all (· < c) = false := h c (by simp [hcolumns])
        simp [closeColumns, hopen, ← hcolumns]

/-- A block that stands right of a level is closed with its own token. -/
theorem unindent_ready_cons {tokens : List Token} {c : Nat} {columns : List Nat} {allowsKey : Bool}
    {m : Mark} {w : Text} {k : Option Nat} (h : ∀ n ∈ k, n < c) :
    (ready tokens (c :: columns) allowsKey m w).unindent k =
      (ready (.blockEnd :: tokens) columns allowsKey m w).unindent k := by
  have hcloses : k.all (· < c) = true := by
    cases k with
    | none => rfl
    | some n => simpa using h n rfl
  have hflow : ∀ tokens columns, (ready tokens columns allowsKey m w).inFlow = false :=
    fun _ _ => rfl
  unfold unindent
  simp only [hflow, Bool.false_eq_true, if_false]
  simp [pending, closeColumns, hcloses]

/-- Closing blocks leaves the reader before the same token, with only open blocks. -/
theorem unindent_ready (tokens : List Token) (columns : List Nat) (allowsKey : Bool) (m : Mark)
    (w : Text) (k : Option Nat) :
    ∃ ts cs, (ready tokens columns allowsKey m w).unindent k = ready ts cs allowsKey m w ∧
      ∀ c ∈ cs.head?, k.all (· < c) = false := by
  induction columns generalizing tokens with
  | nil => exact ⟨tokens, [], unindent_of_open (by simp [pending]), by simp⟩
  | cons c columns ih =>
      by_cases hcloses : k.all (· < c) = true
      · have hright : ∀ n ∈ k, n < c := by
          intro n hn
          simpa [Option.mem_def.1 hn] using hcloses
        rw [unindent_ready_cons hright]
        exact ih (.blockEnd :: tokens)
      · have hopen : ∀ d ∈ (c :: columns).head?, k.all (· < d) = false := by simpa using hcloses
        exact ⟨tokens, c :: columns, unindent_of_open hopen, hopen⟩

theorem run_succ (s : LexState) (fuel : Nat) :
    s.run (fuel + 1) = (s.skipGap.dropStale).bind fun s =>
      match s.cursor.rest with
      | [] => s.finish
      | c :: rest => ((s.unindent (some s.here)).dispatch c rest).bind (run fuel) := by
  rw [run]
  rfl

theorem skipGap_of_isStart {s : LexState} (hflow : s.inFlow = false)
    (hstart : IsStart s.cursor.mark s.cursor.rest) : s.skipGap = s := by
  unfold skipGap
  rw [hflow, skipGapFrom_of_isStart hstart]

@[simp]
theorem dropStale_ready (tokens : List Token) (columns : List Nat) (allowsKey : Bool) (m : Mark)
    (w : Text) :
    (ready tokens columns allowsKey m w).dropStale = some (ready tokens columns allowsKey m w) := by
  simp [dropStale, pending]

/-- A reader that comes to the start of a token closes the blocks it has left. -/
theorem leads_of_settled {s : LexState} {tokens : List Token} {columns : List Nat}
    {allowsKey : Bool} {m : Mark} {w : Text}
    (hsettled : s.skipGap.dropStale = some (ready tokens columns allowsKey m w))
    (hstart : IsStart m w) (hlength : w.length ≤ s.cursor.rest.length) :
    Leads s ((ready tokens columns allowsKey m w).unindent (level m w)) := by
  obtain ⟨ts, cs, hunindent, hopen⟩ := unindent_ready tokens columns allowsKey m w (level m w)
  have hagain : (ready ts cs allowsKey m w).unindent (level m w) = ready ts cs allowsKey m w :=
    unindent_of_open hopen
  have hskip : (ready ts cs allowsKey m w).skipGap = ready ts cs allowsKey m w :=
    skipGap_of_isStart rfl hstart
  rw [hunindent]
  refine ⟨0, by simpa [pending] using hlength, ?_⟩
  intro fuel
  rw [Nat.zero_add]
  cases fuel with
  | zero => rfl
  | succ fuel =>
      rw [run_succ, run_succ, hsettled, hskip, dropStale_ready]
      simp only [Option.bind_some]
      cases w with
      | nil =>
          show (ready tokens columns allowsKey m []).finish = (ready ts cs allowsKey m []).finish
          unfold finish endBlocks
          rw [show (ready tokens columns allowsKey m []).unindent none = _ from hunindent,
            show (ready ts cs allowsKey m []).unindent none = _ from hagain]
      | cons c rest =>
          show (((ready tokens columns allowsKey m (c :: rest)).unindent (some m.column)).dispatch
            c rest).bind _ = (((ready ts cs allowsKey m (c :: rest)).unindent (some m.column)).dispatch
            c rest).bind _
          rw [show (ready tokens columns allowsKey m (c :: rest)).unindent (some m.column) = _ from
            hunindent, show (ready ts cs allowsKey m (c :: rest)).unindent (some m.column) = _ from
            hagain]

/-- One token: what is dispatched on leads on, if no block is left behind. -/
theorem leads_of_dispatch {s next : LexState} {c : Char} {rest : Text} (hflow : s.inFlow = false)
    (hrest : s.cursor.rest = c :: rest) (hstart : IsStart s.cursor.mark (c :: rest))
    (hstale : s.dropStale = some s) (hopen : ∀ d ∈ s.columns.head?, d ≤ s.here)
    (hdispatch : s.dispatch c rest = some next)
    (hlength : next.cursor.rest.length ≤ rest.length) : Leads s next := by
  refine ⟨1, ?_, ?_⟩
  · rw [hrest, List.length_cons]
    omega
  · intro fuel
    have hskip : s.skipGap = s := skipGap_of_isStart hflow (hrest ▸ hstart)
    have hunindent : s.unindent (some s.here) = s := by
      apply unindent_of_open
      intro d hd
      simpa using hopen d hd
    rw [Nat.add_comm, run_succ, hskip, hstale, Option.bind_some, hrest]
    show ((s.unindent (some s.here)).dispatch c rest).bind _ = _
    rw [hunindent, hdispatch, Option.bind_some]

/-! ## Scalars -/

theorem isStart_of_plain {c : Char} {t : Text} (h : isPlainToken (c :: t) = true) {m : Mark}
    (hmark : c = byteOrderMark → 0 < m.column) (rest : Text) : IsStart m (c :: rest) := by
  simp only [isPlainToken, continuesPlain, Bool.and_eq_true, Bool.or_eq_true,
    Bool.not_eq_true'] at h
  obtain ⟨⟨hfirst, hblank⟩, ⟨⟨-, hbreak⟩, -⟩⟩ := h
  intro d hd
  obtain rfl : c = d := Option.some.inj hd
  refine ⟨hblank, hbreak, ?_, hmark⟩
  rintro rfl
  revert hfirst
  simp [isIndicator]

theorem blankNext_append {t : Text} (h : blankNext t = false) (rest : Text) :
    blankNext (t ++ rest) = false := by
  cases t with
  | nil => simp [blankNext] at h
  | cons c t => exact h

theorem dispatch_plain {s : LexState} {c : Char} {t tail : Text} (hflow : s.inFlow = false)
    (htoken : isPlainToken (c :: t) = true)
    (hmark : s.here = 0 → isDocumentMark (c :: (t ++ tail)) = false) :
    s.dispatch c (t ++ tail) = s.plainScalar := by
  have hdocument : (s.here == 0 && isDocumentMark (c :: (t ++ tail))) = false := by
    by_cases hhere : s.here = 0
    · simp [hmark hhere]
    · simp [hhere]
  simp only [isPlainToken, continuesPlain, Bool.and_eq_true, Bool.or_eq_true,
    Bool.not_eq_true'] at htoken
  obtain ⟨⟨hfirst, hblank⟩, ⟨⟨-, hbreak⟩, -⟩⟩ := htoken
  unfold dispatch startsPlain
  simp only [hflow, hdocument]
  cases hfirst with
  | inl hindicator =>
      have hdistinct := hindicator
      simp [isIndicator] at hdistinct
      simp [hindicator, hblank, hbreak, hdistinct]
  | inr hsign =>
      obtain ⟨hsign, hnext⟩ := hsign
      have hnext := blankNext_append hnext tail
      simp at hsign
      rcases hsign with rfl | rfl | rfl
      · have hhead : (t ++ tail).head?.any isBlank = false := by
          cases hrest : t ++ tail with
          | nil => rfl
          | cons d rest =>
              rw [hrest] at hnext
              simp only [blankNext, Bool.or_eq_false_iff] at hnext
              exact hnext.1
        generalize t ++ tail = rest at hnext hhead ⊢
        simp [hnext, hhead]
      · simp [hnext]
      · simp [hnext]

theorem dispatch_quote {s : LexState} (rest : Text) :
    s.dispatch '\x27' rest = s.quotedScalar .single := by
  simp [dispatch, isDocumentMark]

/-- The key that may begin where the reader is. -/
def candidateAt (tokens : List Token) (columns : List Nat) (allowsKey : Bool) (m : Mark) :
    Option Candidate :=
  if allowsKey then some ⟨columns.head? == some m.column, tokens.length, m⟩ else none

theorem noteCandidate_ready (tokens : List Token) (columns : List Nat) (allowsKey : Bool)
    (m : Mark) (w : Text) :
    (ready tokens columns allowsKey m w).noteCandidate =
      some (pending (candidateAt tokens columns allowsKey m) tokens columns allowsKey m w) := by
  cases allowsKey <;> rfl

theorem plainScalar_ready {tokens : List Token} {columns : List Nat} {m : Mark}
    {w : Text} {r : ScannedScalar} (allowsKey : Bool)
    (hscan : scanPlain false ((columns.head?.map (· + 1)).getD 0) ⟨m, w⟩ = some r) :
    (ready tokens columns allowsKey m w).plainScalar =
      some (pending (candidateAt tokens columns allowsKey m) (.scalar r.text true :: tokens)
        columns r.endsLine r.next.mark r.next.rest) := by
  unfold plainScalar
  rw [noteCandidate_ready]
  show (scanPlain false ((columns.head?.map (· + 1)).getD 0) ⟨m, w⟩).bind _ = _
  rw [hscan]
  rfl

theorem quotedScalar_ready {tokens : List Token} {columns : List Nat} {m : Mark}
    {w : Text} {r : ScannedScalar} (allowsKey : Bool)
    (hscan : scanQuoted .single ⟨m.next, w⟩ = some r) :
    (ready tokens columns allowsKey m ('\x27' :: w)).quotedScalar .single =
      some (pending (candidateAt tokens columns allowsKey m) (.scalar r.text false :: tokens)
        columns false r.next.mark r.next.rest) := by
  unfold quotedScalar
  rw [noteCandidate_ready]
  show (scanQuoted .single ⟨m.next, w⟩).bind _ = _
  rw [hscan]
  rfl

/-- A key that was not required is given up on the next line. -/
theorem dropStale_pending {candidate : Option Candidate} {tokens : List Token}
    {columns : List Nat} {allowsKey : Bool} {m : Mark} {w : Text}
    (hstale : ∀ k ∈ candidate, k.mark.line < m.line ∧ k.isRequired = false) :
    (pending candidate tokens columns allowsKey m w).dropStale =
      some (ready tokens columns allowsKey m w) := by
  cases candidate with
  | none => exact dropStale_ready tokens columns allowsKey m w
  | some k =>
      obtain ⟨hline, hrequired⟩ := hstale k rfl
      simp [dropStale, pending, isStale, hline, hrequired]

/-- A scalar at the end of a line: its possible key is given up with the line. -/
theorem leads_of_scalar {tokens ts : List Token} {column : Nat} {columns : List Nat}
    {allowsKey endsLine : Bool} {m here next : Mark} {c : Char} {rest left w : Text}
    (hstart : IsStart m (c :: rest)) (hcolumn : column < m.column)
    (hdispatch : (ready tokens (column :: columns) allowsKey m (c :: rest)).dispatch c rest =
      some (pending (candidateAt tokens (column :: columns) allowsKey m) ts (column :: columns)
        endsLine here left))
    (hgap : skipGapFrom false false endsLine here left = (true, ⟨next, w⟩))
    (hline : m.line < next.line) (hw : IsStart next w) (hleft : left.length ≤ rest.length)
    (hlength : w.length ≤ left.length) :
    Leads (ready tokens (column :: columns) allowsKey m (c :: rest))
      ((ready ts (column :: columns) true next w).unindent (level next w)) := by
  have hopen : ∀ d ∈ (column :: columns).head?, d ≤ m.column := by
    simpa using Nat.le_of_lt hcolumn
  have hstale : ∀ k ∈ candidateAt tokens (column :: columns) allowsKey m,
      k.mark.line < next.line ∧ k.isRequired = false := by
    intro k hk
    cases allowsKey with
    | false => simp [candidateAt] at hk
    | true =>
        obtain rfl : _ = k := Option.some.inj hk
        refine ⟨hline, ?_⟩
        simpa using Nat.ne_of_lt hcolumn
  have hsettled : (pending (candidateAt tokens (column :: columns) allowsKey m) ts
      (column :: columns) endsLine here left).skipGap.dropStale =
        some (ready ts (column :: columns) true next w) := by
    rw [← dropStale_pending hstale]
    unfold skipGap
    rw [show LexState.inFlow _ = false from rfl]
    simp only [pending, hgap]
  have htoken := leads_of_dispatch rfl rfl hstart (dropStale_ready _ _ _ _ _) hopen hdispatch hleft
  exact htoken.trans (leads_of_settled hsettled hw hlength)

/-- A scalar is read as its token, and the reader goes on to what follows. -/
theorem leads_scalar {s : Spelling} (hs : s.isWritable = true) {tokens : List Token}
    {column : Nat} {columns : List Nat} (allowsKey : Bool) {m : Mark} {tail w : Text}
    {k : Option Nat} (hfollows : Follows tail k w) (hk : ∀ n ∈ k, n ≤ column)
    (hcolumn : column < m.column) :
    Leads (ready tokens (column :: columns) allowsKey m (s.text ++ tail))
      ((ready (s.token :: tokens) (column :: columns) true
        ((m.advance s.text.length).atNext k) w).unindent k) := by
  have hlevel := level_atNext hfollows (m.advance s.text.length)
  have hw := isStart_of_follows hfollows (m.advance s.text.length)
  have hline : m.line < ((m.advance s.text.length).atNext k).line := Nat.lt_succ_self m.line
  have hlength : w.length ≤ tail.length := length_of_follows hfollows
  have hinside : m.column ≠ 0 := by omega
  cases s with
  | plain t =>
      have htoken : isPlainToken t = true := hs
      have hshallow : ∀ n ∈ k, n < column + 1 := fun n hn => Nat.lt_succ_of_le (hk n hn)
      have hscan := scanPlain_line htoken hfollows hshallow (m := m) (by omega)
      cases t with
      | nil => simp [isPlainToken] at htoken
      | cons c t =>
          have hhere : (ready tokens (column :: columns) allowsKey m (c :: (t ++ tail))).here ≠ 0 :=
            hinside
          have hdispatch : (ready tokens (column :: columns) allowsKey m (c :: (t ++ tail))).dispatch
              c (t ++ tail) = _ :=
            (dispatch_plain rfl htoken fun hzero => absurd hzero hhere).trans
              (plainScalar_ready allowsKey hscan)
          have hleads := leads_of_scalar (isStart_of_plain htoken (fun _ => by omega) _) hcolumn
            hdispatch (skipGapFrom_of_isStart hw _) hline hw (by simp; omega) (Nat.le_refl _)
          rwa [hlevel] at hleads
  | quoted t =>
      have hquotable : isQuotable t = true := hs
      have hend : tail.head? ≠ some '\x27' := by
        cases hfollows <;> simp [lineBreak]
      have hscan : scanQuoted .single ⟨m.next, doubleQuotes t ++ '\x27' :: tail⟩ = _ :=
        scanQuotedFrom_doubleQuotes t tail [] [] hquotable hend (Nat.succ_pos _)
      have hdispatch : (ready tokens (column :: columns) allowsKey m
          ('\x27' :: (doubleQuotes t ++ '\x27' :: tail))).dispatch '\x27'
            (doubleQuotes t ++ '\x27' :: tail) = _ :=
        (dispatch_quote _).trans (quotedScalar_ready allowsKey hscan)
      have hstart : IsStart m ('\x27' :: (doubleQuotes t ++ '\x27' :: tail)) := by
        intro c hc
        obtain rfl : '\x27' = c := Option.some.inj hc
        exact ⟨by decide, by decide, by decide, fun _ => by omega⟩
      have hmark : m.next.advance ((doubleQuotes t).length + 1) =
          m.advance (Spelling.quoted t).text.length := by
        rw [Mark.next_advance]
        simp [Spelling.text]
      have hleads := leads_of_scalar hstart hcolumn hdispatch
        (skipGapFrom_follows hfollows false _) (hmark ▸ hline) (hmark ▸ hw) (by simp; omega) hlength
      rw [hmark, hlevel] at hleads
      simpa [Spelling.text, Spelling.token, Spelling.content, Spelling.isPlain] using hleads

/-! ## Structure -/

/-- What opening a block at a column makes of the tokens; nothing where it is open already. -/
def openedTokens (t : Token) (tokens : List Token) (columns : List Nat) (column : Nat) :
    List Token :=
  if columns.head?.all (· < column) then t :: tokens else tokens

/-- What opening a block at a column makes of the open columns. -/
def openedColumns (columns : List Nat) (column : Nat) : List Nat :=
  if columns.head?.all (· < column) then column :: columns else columns

/-- Whether a text can be written as a key: it is a plain scalar, not too long, and looks
neither like a mark of a document nor like one of the encoding. -/
def isKey (t : Text) : Bool :=
  isPlainToken t && decide (t.length ≤ longestKey) && !isDocumentMark t &&
    t.head? != some byteOrderMark

theorem isDocumentMark_append_colon {t : Text} (h : isDocumentMark t = false) (rest : Text) :
    isDocumentMark (t ++ ':' :: rest) = false := by
  match t with
  | [] => rfl
  | [a] =>
      unfold isDocumentMark
      split <;> simp_all
  | [a, b] =>
      unfold isDocumentMark
      split <;> simp_all
  | a :: b :: c :: t =>
      show isDocumentMark (a :: b :: c :: (t ++ ':' :: rest)) = false
      unfold isDocumentMark
      split
      · rename_i hmark
        obtain ⟨rfl, rfl, rfl, rfl⟩ : _ ∧ _ ∧ _ ∧ _ := by simpa using hmark
        exact blankNext_append h _
      · rename_i hmark
        obtain ⟨rfl, rfl, rfl, rfl⟩ : _ ∧ _ ∧ _ ∧ _ := by simpa using hmark
        exact blankNext_append h _
      · rfl

theorem dispatch_colon {s : LexState} {rest : Text} (hrest : blankNext rest = true) :
    s.dispatch ':' rest = s.mappingValue := by
  simp [dispatch, isDocumentMark, hrest]

section Colon

variable {token : Token} {tokens : List Token} {columns : List Nat} {m now : Mark} {rest : Text}

theorem mappingValue_pending :
    (pending (candidateAt tokens columns true m) (token :: tokens) columns false now
        (':' :: rest)).mappingValue =
      some (ready (.value :: token :: .key ::
          openedTokens .blockMappingStart tokens columns m.column)
        (openedColumns columns m.column) false now.next rest) := by
  have hone : tokens.length + 1 - tokens.length = 1 := by omega
  have htwo : tokens.length + 1 + 1 - tokens.length = 2 := by omega
  unfold mappingValue openedTokens openedColumns
  by_cases hdeeper : columns.head?.all (· < m.column) = true
  · simp [candidate?, pending, candidateAt, emitAt, indentTo, inFlow, isDeeper, column?, hdeeper,
      hone, htwo, allowing, emit, skip, Cursor.skip, Mark.next, Mark.advance]
  · simp [candidate?, pending, candidateAt, emitAt, indentTo, inFlow, isDeeper, column?, hdeeper,
      hone, allowing, emit, skip, Cursor.skip, Mark.next, Mark.advance]

/-- The colon after a key that has just been read. -/
theorem leads_colon (hopen : ∀ d ∈ columns.head?, d ≤ now.column)
    (hfresh : isStale now ⟨columns.head? == some m.column, tokens.length, m⟩ = false)
    (hrest : blankNext rest = true) :
    Leads (pending (candidateAt tokens columns true m) (token :: tokens) columns false now
        (':' :: rest))
      (ready (.value :: token :: .key ::
          openedTokens .blockMappingStart tokens columns m.column)
        (openedColumns columns m.column) false now.next rest) := by
  have hstart : IsStart now (':' :: rest) := by
    intro c hc
    obtain rfl : ':' = c := Option.some.inj hc
    exact ⟨by decide, by decide, by decide, fun hmark => absurd hmark (by decide)⟩
  have hstale : (pending (candidateAt tokens columns true m) (token :: tokens) columns false now
      (':' :: rest)).dropStale = some (pending (candidateAt tokens columns true m)
        (token :: tokens) columns false now (':' :: rest)) := by
    simp [dropStale, pending, candidateAt, hfresh]
  exact leads_of_dispatch rfl rfl hstart hstale hopen
    ((dispatch_colon hrest).trans mappingValue_pending) (Nat.le_refl _)

end Colon

/-- A key with its colon, behind which its value is to come. -/
theorem leads_key {key : Text} (hkey : isKey key = true) (tokens : List Token)
    {columns : List Nat} {m : Mark} {rest : Text} (hopen : ∀ d ∈ columns.head?, d ≤ m.column)
    (hrest : blankNext rest = true) :
    Leads (ready tokens columns true m (key ++ ':' :: rest))
      (ready (.value :: .scalar key true :: .key ::
          openedTokens .blockMappingStart tokens columns m.column)
        (openedColumns columns m.column) false (m.advance (key.length + 1)) rest) := by
  simp only [isKey, Bool.and_eq_true, decide_eq_true_eq, Bool.not_eq_true', bne_iff_ne,
    ne_eq] at hkey
  obtain ⟨⟨⟨htoken, hlong⟩, hmark⟩, hencoding⟩ := hkey
  have hindent : (columns.head?.map (· + 1)).getD 0 ≤ m.column + 1 := by
    cases hcolumns : columns.head? with
    | none => simp
    | some d => simpa using hopen d hcolumns
  have hscan := scanPlain_key htoken hrest hindent
  cases key with
  | nil => simp [isPlainToken] at htoken
  | cons c t =>
      have hdocument := isDocumentMark_append_colon hmark rest
      have hfirst : c = byteOrderMark → 0 < m.column := by
        intro hc
        exact absurd (congrArg some hc) hencoding
      have hdispatch : (ready tokens columns true m (c :: (t ++ ':' :: rest))).dispatch c
          (t ++ ':' :: rest) = _ :=
        (dispatch_plain rfl htoken fun _ => hdocument).trans (plainScalar_ready true hscan)
      have hscalar := leads_of_dispatch rfl rfl (isStart_of_plain htoken hfirst _)
        (dropStale_ready _ _ _ _ _) hopen hdispatch (by simp [pending])
      have hopenHere : ∀ d ∈ columns.head?, d ≤ (m.advance (c :: t).length).column := by
        intro d hd
        exact Nat.le_trans (hopen d hd) (Nat.le_add_right _ _)
      have hfresh : isStale (m.advance (c :: t).length)
          ⟨columns.head? == some m.column, tokens.length, m⟩ = false := by
        simp only [isStale, Mark.advance, Nat.lt_irrefl, decide_false, Bool.false_or]
        exact decide_eq_false (by omega)
      exact hscalar.trans (leads_colon hopenHere hfresh hrest)

theorem blockEntry_ready {tokens : List Token} {columns : List Nat} {m : Mark} {rest : Text} :
    (ready tokens columns true m ('-' :: rest)).blockEntry =
      some (ready (.blockEntry :: openedTokens .blockSequenceStart tokens columns m.column)
        (openedColumns columns m.column) true m.next rest) := by
  unfold blockEntry openedTokens openedColumns
  by_cases hdeeper : columns.head?.all (· < m.column) = true
  · simp [beginBlock, here, pending, emitAt, indentTo, inFlow, isDeeper, column?, hdeeper,
      dropCandidate, candidate?, allowing, emit, skip, Cursor.skip, Mark.next, Mark.advance]
  · simp [beginBlock, here, pending, indentTo, inFlow, isDeeper, column?, hdeeper,
      dropCandidate, candidate?, allowing, emit, skip, Cursor.skip, Mark.next, Mark.advance]

/-- The dash before an item. -/
theorem leads_dash {tokens : List Token} {columns : List Nat} {m : Mark} {rest : Text}
    (hopen : ∀ d ∈ columns.head?, d ≤ m.column) :
    Leads (ready tokens columns true m ('-' :: ' ' :: rest))
      (ready (.blockEntry :: openedTokens .blockSequenceStart tokens columns m.column)
        (openedColumns columns m.column) true m.next (' ' :: rest)) := by
  have hstart : IsStart m ('-' :: ' ' :: rest) := by
    intro c hc
    obtain rfl : '-' = c := Option.some.inj hc
    exact ⟨by decide, by decide, by decide, fun hmark => absurd hmark (by decide)⟩
  have hdispatch : (ready tokens columns true m ('-' :: ' ' :: rest)).dispatch '-' (' ' :: rest) =
      (ready tokens columns true m ('-' :: ' ' :: rest)).blockEntry := by
    have hblank : blankNext (' ' :: rest) = true := rfl
    simp [dispatch, isDocumentMark, hblank]
  exact leads_of_dispatch rfl rfl hstart (dropStale_ready _ _ _ _ _) hopen
    (hdispatch.trans blockEntry_ready) (Nat.le_refl _)

theorem openedTokens_cons (t : Token) (tokens : List Token) (columns : List Nat) (column : Nat) :
    openedTokens t tokens (column :: columns) column = tokens := by
  simp [openedTokens]

theorem openedColumns_cons (columns : List Nat) (column : Nat) :
    openedColumns (column :: columns) column = column :: columns := by
  simp [openedColumns]

section Opening

variable {columns : List Nat} {column : Nat}

theorem all_head?_lt (h : ∀ d ∈ columns.head?, d < column) :
    columns.head?.all (· < column) = true := by
  cases hcolumns : columns.head? with
  | none => rfl
  | some d => simpa using h d hcolumns

theorem openedTokens_of_lt (h : ∀ d ∈ columns.head?, d < column) (t : Token)
    (tokens : List Token) : openedTokens t tokens columns column = t :: tokens :=
  if_pos (all_head?_lt h)

theorem openedColumns_of_lt (h : ∀ d ∈ columns.head?, d < column) :
    openedColumns columns column = column :: columns :=
  if_pos (all_head?_lt h)

/-- A block at a column is open there once it has been opened, or it was open before. -/
theorem exists_openedColumns (h : ∀ d ∈ columns.head?, d ≤ column) :
    ∃ outer, openedColumns columns column = column :: outer := by
  by_cases hdeeper : columns.head?.all (· < column) = true
  · exact ⟨columns, by simp [openedColumns, hdeeper]⟩
  · cases columns with
    | nil => simp at hdeeper
    | cons d rest =>
        have hle : d ≤ column := h d rfl
        have hge : column ≤ d := by simpa using hdeeper
        obtain rfl : d = column := Nat.le_antisymm hle hge
        exact ⟨rest, openedColumns_cons rest d⟩

end Opening

/-- Where a gap ends, the blocks left of it stay open. -/
theorem leads_gap {tokens : List Token} {columns : List Nat} {before after : Bool} {m next : Mark}
    {rest w : Text} (hgap : skipGapFrom false false before m rest = (after, ⟨next, w⟩))
    (hw : IsStart next w) (hnonempty : w ≠ []) (hlength : w.length ≤ rest.length)
    (hopen : ∀ d ∈ columns.head?, d ≤ next.column) :
    Leads (ready tokens columns before m rest) (ready tokens columns after next w) := by
  have hsettled : (ready tokens columns before m rest).skipGap.dropStale =
      some (ready tokens columns after next w) := by
    rw [← dropStale_ready tokens columns after next w]
    unfold skipGap
    rw [show LexState.inFlow _ = false from rfl]
    simp only [pending, hgap]
  have hleads := leads_of_settled hsettled hw hlength
  have hlevel : level next w = some next.column := by
    cases w with
    | nil => exact absurd rfl hnonempty
    | cons c w => rfl
  rw [hlevel] at hleads
  rwa [unindent_of_open (s := ready tokens columns after next w)] at hleads
  intro d hd
  simpa using hopen d hd

theorem leads_space (tokens : List Token) {columns : List Nat} (allowsKey : Bool) {m : Mark}
    {w : Text} (hw : IsStart m.next w) (hnonempty : w ≠ [])
    (hopen : ∀ d ∈ columns.head?, d ≤ m.next.column) :
    Leads (ready tokens columns allowsKey m (' ' :: w))
      (ready tokens columns allowsKey m.next w) :=
  leads_gap (skipGapFrom_space hw allowsKey) hw hnonempty (by simp) hopen

/-- A line end before a line that is indented. -/
theorem leads_lineBreak (tokens : List Token) {columns : List Nat} (allowsKey : Bool) {m : Mark}
    {w : Text} {column : Nat} (hw : IsStart (m.atNext (some column)) w) (hnonempty : w ≠ [])
    (hopen : ∀ d ∈ columns.head?, d ≤ column) :
    Leads (ready tokens columns allowsKey m (lineBreak column ++ w))
      (ready tokens columns true (m.atNext (some column)) w) := by
  have hgap : skipGapFrom false false allowsKey m (lineBreak column ++ w) =
      (true, ⟨m.atNext (some column), w⟩) := by
    rw [lineBreak, List.cons_append, skipGapFrom, if_pos (by decide), skipGapFrom_spaces]
    exact (skipGapFrom_of_isStart hw _).trans (by simp)
  have hsame : (m.atNext (some column)).column = column := by
    simp [Mark.atNext, Mark.nextLine, Mark.advance]
  exact leads_gap hgap hw hnonempty (by simp) (by rwa [hsame])

/-- Where nothing is left and no block is open, the tokens are complete. -/
theorem run_ready_nil (tokens : List Token) (m : Mark) (fuel : Nat) :
    ((ready tokens [] true m []).run (fuel + 1)).map (·.tokens) = some tokens := by
  rw [run_succ, skipGap_of_isStart rfl (by simp [IsStart, pending]), dropStale_ready]
  simp [finish, endBlocks, unindent, closeColumns, dropCandidate, candidate?, pending, allowing,
    inFlow]

end LexState

end SetterReport.Yaml
