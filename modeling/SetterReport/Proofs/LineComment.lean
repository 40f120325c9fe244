import SetterReport.Proofs.CommentChoice

/-!
# The comment of a line

In YAML a `#` opens a comment at the start of a line and after a space or a tab, unless it
stands in a quoted value; the comment is all the rest of the line.  So on a line without
quotes before it, the first such `#` opens the comment, and no `#` in the comment opens
another one.

What a line refers to is not told by this comment alone.  Nothing that stands in front of it
matters: a text that holds its `#` outside all strings is no JSON.  But a `#` inside of the
comment is tried as well, if it stands behind a blank.  So a comment that mentions a
reference after some other words counts as the reference, and so does a field that is
commented out.

## Main results

* `read_lineComment_iff` — a line refers to what its comment names or mentions; the comment
  alone decides exactly when it mentions nothing.
* `read_append_left` — words in front of a line leave it what it refers to, also if they
  comment it out.
-/

namespace SetterReport

open Json Json.Standing

namespace Json.Standing

/-- Without quotes a reader stays outside, where it does not get past a `#`. -/
theorem afterAll_hash {t : Text} (hquote : '\x22' ∉ t) (rest : Text) :
    outside.afterAll (t ++ '#' :: rest) = none := by
  induction t with
  | nil => rfl
  | cons c t ih =>
      have hc : c ≠ '\x22' := by
        intro hc
        exact hquote (by simp [hc])
      have ht : '\x22' ∉ t := by
        intro ht
        exact hquote (by simp [ht])
      rw [List.cons_append, afterAll_cons]
      by_cases hmark : c = '#' ∨ c = '$' ∨ c = '\\'
      · simp [Standing.after, hc, hmark]
      · have hkeep : outside.after c = some outside := by
          simp [Standing.after, hc, hmark]
        rw [hkeep]
        exact ih ht

end Json.Standing

namespace FieldReference

/-! ## What a comment names -/

/-- Of the two keys, the first that has a string for its value has this one. -/
def IsNamed (object : Json) (name : Text) : Prop :=
  object.member? "$openapi".toList = some (.string name) ∨
    (∀ t, object.member? "$openapi".toList ≠ some (.string t)) ∧
      object.member? "$kpt-set".toList = some (.string name)

theorem bind_text?_eq_some_iff {v : Option Json} {t : Text} :
    v.bind text? = some t ↔ v = some (.string t) := by
  cases v with
  | none => simp
  | some v => cases v <;> simp [text?]

theorem nameIn_eq_some_iff {object : Json} {name : Text} :
    nameIn object = some name ↔ IsNamed object name := by
  unfold IsNamed
  have hfind : nameIn object = ((object.member? "$openapi".toList).bind text?).or
      ((object.member? "$kpt-set".toList).bind text?) := by
    unfold nameIn keys
    rw [List.findSome?_cons, List.findSome?_cons, List.findSome?_nil]
    cases (object.member? "$openapi".toList).bind text? with
    | some t => rfl
    | none => cases (object.member? "$kpt-set".toList).bind text? <;> rfl
  rw [hfind, Option.or_eq_some_iff, bind_text?_eq_some_iff, bind_text?_eq_some_iff,
    Option.eq_none_iff_forall_ne_some]
  simp only [ne_eq, bind_text?_eq_some_iff]

/-- Trimmed, a comment is a JSON object that names a definition. -/
def Names (comment name : Text) : Prop :=
  ∃ object, Holds comment object ∧ IsNamed object name

theorem readComment_eq_some_iff_names {comment name : Text} :
    readComment comment = some name ↔ Names comment name := by
  rw [readComment_eq_some_iff]
  unfold Names
  simp only [nameIn_eq_some_iff]

/-- After a blank and a `#` of its own, a comment goes on with one that names a
definition. -/
def Mentions (comment name : Text) : Prop :=
  ∃ before blank nested, comment = before ++ blank :: '#' :: nested ∧
    Text.isBlank blank = true ∧ Names nested name

/-! ## The comment -/

/-- A `#` after this text opens a YAML comment, if it is not quoted. -/
def AllowsComment (front : Text) : Prop :=
  ∀ c ∈ front.getLast?, c = ' ' ∨ c = '\t'

/-- The line has no quote before the first `#` that opens a YAML comment, and `comment` is
what follows this `#`. -/
structure IsLineComment (line front comment : Text) : Prop where
  eq_append : line = front ++ '#' :: comment
  allowed : AllowsComment front
  first : ∀ before after, front = before ++ '#' :: after → ¬ AllowsComment before
  noQuote : '\x22' ∉ front ∧ '\x27' ∉ front

theorem AllowsComment.opens {front : Text} (h : AllowsComment front) (comment : Text) :
    Opens (front ++ '#' :: comment) front comment := by
  refine ⟨rfl, ?_⟩
  intro c hc
  rcases h c hc with rfl | rfl
  · rfl
  · rfl

section Line

variable {line front comment name : Text}

/-- A comment that stands in another one is a comment of the line. -/
theorem Opens.nested {before nested : Text} {blank : Char}
    (h : Opens line front (before ++ blank :: '#' :: nested))
    (hblank : Text.isBlank blank = true) :
    Opens line (front ++ '#' :: (before ++ [blank])) nested := by
  refine ⟨by simp [h.eq_append], ?_⟩
  intro c hc
  rw [← List.cons_append, ← List.append_assoc, List.getLast?_concat] at hc
  obtain rfl : blank = c := Option.some.inj hc
  exact hblank

/-- Behind a text without quotes, what a line refers to is found in the comment. -/
theorem read_eq_some_iff_of_opens (hopens : Opens line front comment)
    (hquote : '\x22' ∉ front) :
    read line = some name ↔ Names comment name ∨ Mentions comment name := by
  rw [read_eq_some_iff]
  constructor
  · intro h
    obtain ⟨front', comment', hopens', hname⟩ := h
    rw [readComment_eq_some_iff_names] at hname
    have hsplit := hopens.eq_append.symm.trans hopens'.eq_append
    rcases append_hash_cases hsplit with ⟨-, rfl⟩ | ⟨between, rfl, rfl⟩ | ⟨between, rfl, rfl⟩
    · exact Or.inl hname
    · obtain ⟨before, blank, rfl, hblank⟩ := hopens'.exists_blank
      exact Or.inr ⟨before, blank, comment', by simp, hblank, hname⟩
    · -- the `#` of the comment would stand in an object, outside all strings
      have hbetween : '\x22' ∉ between := by
        intro hmem
        exact hquote (by simp [hmem])
      obtain ⟨object, hobject, -⟩ := hname
      have hend := hobject.afterAll
      rw [afterAll_hash hbetween] at hend
      exact absurd hend (by simp)
  · intro h
    rcases h with hname | ⟨before, blank, nested, rfl, hblank, hname⟩
    · exact ⟨front, comment, hopens, readComment_eq_some_iff_names.2 hname⟩
    · exact ⟨_, nested, hopens.nested hblank, readComment_eq_some_iff_names.2 hname⟩

/-- A comment that names something mentions nothing. -/
theorem Names.not_mentions {mentioned : Text} (hname : Names comment name) :
    ¬ Mentions comment mentioned := by
  intro hmentions
  obtain ⟨before, blank, nested, rfl, hblank, object', hobject', -⟩ := hmentions
  obtain ⟨object, hobject, -⟩ := hname
  exact afterAll_nested hblank hobject'.afterAll hobject.afterAll

/-- Where no quote stands before the comment of a line, the line refers to what the comment
names, or to what it mentions after a blank and a `#` of its own; no comment does both.  So
the comment alone decides exactly when it mentions nothing. -/
theorem read_lineComment_iff (h : IsLineComment line front comment) :
    (∀ name, read line = some name ↔ Names comment name ∨ Mentions comment name) ∧
    (∀ name mentioned, ¬ (Names comment name ∧ Mentions comment mentioned)) ∧
    ((∀ name, read line = some name ↔ Names comment name) ↔
      ∀ name, ¬ Mentions comment name) := by
  have hopens : Opens line front comment := by
    rw [h.eq_append]
    exact h.allowed.opens comment
  have hread : ∀ name, read line = some name ↔ Names comment name ∨ Mentions comment name := by
    intro name
    exact read_eq_some_iff_of_opens hopens h.noQuote.1
  refine ⟨hread, ?_, ?_⟩
  · intro name mentioned hboth
    exact hboth.1.not_mentions hboth.2
  · constructor
    · intro halone name hmentions
      have hname : Names comment name := (halone name).1 ((hread name).2 (Or.inr hmentions))
      exact hname.not_mentions hmentions
    · intro hnone name
      rw [hread name]
      constructor
      · intro hor
        exact hor.resolve_right (hnone name)
      · intro hname
        exact Or.inl hname

/-- Words in front of a line leave it what it refers to, also if they comment it out. -/
theorem read_append_left {words : Text} {blank : Char} (hblank : Text.isBlank blank = true)
    (h : read line = some name) : read (words ++ blank :: line) = some name := by
  rw [read_eq_some_iff] at h ⊢
  obtain ⟨front, comment, hopens, hname⟩ := h
  refine ⟨words ++ blank :: front, comment, ⟨?_, ?_⟩, hname⟩
  · simp [hopens.eq_append]
  · intro c hc
    rw [List.getLast?_append, List.getLast?_cons] at hc
    cases hlast : front.getLast? with
    | none =>
        obtain rfl : blank = c := by simpa [hlast] using hc
        exact hblank
    | some d =>
        obtain rfl : d = c := by simpa [hlast] using hc
        exact hopens.blank d hlast

end Line

/-! ## Comments that only mention a reference -/

theorem isLineComment_of_not_mem {front : Text} (hallowed : AllowsComment front)
    (hhash : '#' ∉ front) (hquote : '\x22' ∉ front ∧ '\x27' ∉ front) (comment : Text) :
    IsLineComment (front ++ '#' :: comment) front comment := by
  refine ⟨rfl, hallowed, ?_, hquote⟩
  intro before after hfront
  exact absurd (by simp [hfront]) hhash

/-- A reference. -/
def referenceComment : Text := " \x7b\x22$openapi\x22:\x22replicas\x22\x7d".toList

/-- A field with this reference. -/
def referringField : Text := "replicas: 3 ".toList ++ '#' :: referenceComment

/-- What stands before the comment on a line of another field. -/
def citingFront : Text := "size: 3 ".toList

/-- A comment that mentions the first field. -/
def citingComment : Text := " as in ".toList ++ referringField

/-- The general statement at a comment that mentions another field. -/
theorem read_lineComment_iff_citing :
    IsLineComment (citingFront ++ '#' :: citingComment) citingFront citingComment ∧
    read (citingFront ++ '#' :: citingComment) = some "replicas".toList ∧
    (∀ name, read (citingFront ++ '#' :: citingComment) = some name ↔
      Names citingComment name ∨ Mentions citingComment name) ∧
    (∀ name mentioned, ¬ (Names citingComment name ∧ Mentions citingComment mentioned)) ∧
    ¬ ∀ name, read (citingFront ++ '#' :: citingComment) = some name ↔
      Names citingComment name := by
  have hlast : citingFront.getLast? = some ' ' := by decide +kernel
  have hallowed : AllowsComment citingFront := by
    unfold AllowsComment
    rw [hlast]
    intro c hc
    exact Or.inl (Option.some.inj hc).symm
  have hcomment : IsLineComment (citingFront ++ '#' :: citingComment) citingFront
      citingComment :=
    isLineComment_of_not_mem hallowed (by decide +kernel) (by decide +kernel) citingComment
  have hnames : Names referenceComment "replicas".toList :=
    readComment_eq_some_iff_names.1 (by decide +kernel)
  have hmentions : Mentions citingComment "replicas".toList :=
    ⟨" as in replicas: 3".toList, ' ', referenceComment, by decide +kernel, rfl, hnames⟩
  obtain ⟨hread, hnot, halone⟩ := read_lineComment_iff hcomment
  refine ⟨hcomment, (hread _).2 (Or.inr hmentions), hread, hnot, ?_⟩
  intro hall
  exact halone.1 hall _ hmentions

/-- The comment of a line with a field that is commented out starts at its first character
and names nothing, but the line refers to what the field refers to. -/
theorem read_commentedOut :
    IsLineComment ('#' :: ' ' :: referringField) [] (' ' :: referringField) ∧
    (∀ name, ¬ Names (' ' :: referringField) name) ∧
    read ('#' :: ' ' :: referringField) = some "replicas".toList := by
  have hallowed : AllowsComment [] := by simp [AllowsComment]
  refine ⟨?_, ?_, ?_⟩
  · exact isLineComment_of_not_mem hallowed (by simp) (by simp) (' ' :: referringField)
  · intro name hname
    have hnone : readComment (' ' :: referringField) = none := by decide +kernel
    rw [← readComment_eq_some_iff_names, hnone] at hname
    simp at hname
  · have hfield : read referringField = some "replicas".toList := by decide +kernel
    show read (['#'] ++ ' ' :: referringField) = some "replicas".toList
    exact read_append_left (by decide) hfield

end FieldReference

end SetterReport
