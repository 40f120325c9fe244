import SetterReport.Proofs.CommentObject

/-!
# Which comment of a line decides

A line can have several `#` that may open a comment, and what follows each of them is tried
as a JSON object.  At most one of these texts is one, so it does not matter in which order
they are tried.

The later of two such texts is the end of the earlier one, so both end at the same place.
Were both JSON, a reader of the earlier one would come to the `#` of the later one inside a
string, since outside no `#` can stand; a reader of the later one starts there outside.  The
two are then opposed, and every further character keeps them so: a quote takes both across,
and a backslash, which one of them meets outside all strings, is refused.  But at the end
both stand outside.

## Main result

* `object_unique` — at most one comment of a line is a JSON object, this one alone says what
  the line refers to, and every order of trying the comments gives the same.
-/

namespace SetterReport

open Json Json.Standing

/-! ## Opposed readers -/

namespace Json.Standing

/-- One reader stands in a string and the other one outside. -/
inductive Opposed : Standing → Standing → Prop
  | outside : Opposed outside inside
  | inside : Opposed inside outside

theorem opposed_of_after {c : Char} {s t : Standing} (hs : outside.after c = some s)
    (ht : inside.after c = some t) : Opposed s t := by
  by_cases hquote : c = '\x22'
  · subst hquote
    obtain rfl : inside = s := Option.some.inj hs
    obtain rfl : outside = t := Option.some.inj ht
    exact .inside
  · have hback : c ≠ '\\' := by
      intro hc
      subst hc
      simp [after] at hs
    have hkeep : inside.after c = some inside := by
      simp [after, hquote, hback]
    obtain rfl : inside = t := Option.some.inj (hkeep.symm.trans ht)
    have hout : outside = s := by
      simp only [after, if_neg hquote] at hs
      split at hs
      · simp at hs
      · exact Option.some.inj hs
    subst hout
    exact .outside

/-- A character that both readers take leaves them opposed. -/
theorem Opposed.after {s t s' t' : Standing} (h : Opposed s t) {c : Char}
    (hs : s.after c = some s') (ht : t.after c = some t') : Opposed s' t' := by
  cases h with
  | outside => exact opposed_of_after hs ht
  | inside =>
      cases opposed_of_after ht hs with
      | outside => exact .inside
      | inside => exact .outside

/-- A text that both readers take leaves them opposed. -/
theorem Opposed.afterAll {s t s' t' : Standing} (h : Opposed s t) {text : Text}
    (hs : s.afterAll text = some s') (ht : t.afterAll text = some t') : Opposed s' t' := by
  induction text generalizing s t with
  | nil =>
      obtain rfl : s = s' := Option.some.inj hs
      obtain rfl : t = t' := Option.some.inj ht
      exact h
  | cons c rest ih =>
      rw [afterAll_cons] at hs ht
      obtain ⟨s₁, hs₁, hs⟩ := Option.bind_eq_some_iff.1 hs
      obtain ⟨t₁, ht₁, ht⟩ := Option.bind_eq_some_iff.1 ht
      exact ih (h.after hs₁ ht₁) hs ht

/-- A text that leads from outside to outside does not lead there from behind a blank and
a `#` of a text before it. -/
theorem afterAll_nested {before nested : Text} {blank : Char}
    (hblank : Text.isBlank blank = true) (hnested : outside.afterAll nested = some outside) :
    outside.afterAll (before ++ blank :: '#' :: nested) ≠ some outside := by
  intro hall
  rw [afterAll_append] at hall
  obtain ⟨s, -, hall⟩ := Option.bind_eq_some_iff.1 hall
  rw [afterAll_cons] at hall
  obtain ⟨s₁, hs₁, hall⟩ := Option.bind_eq_some_iff.1 hall
  have hescaped : s₁ ≠ escaped := ne_escaped_of_after_blank hblank hs₁
  cases s₁ with
  | escaped => exact hescaped rfl
  | outside => simp [Standing.after] at hall
  | inside =>
      have hend : inside.afterAll nested = some outside := hall
      cases Opposed.outside.afterAll hnested hend

end Json.Standing

namespace FieldReference

/-! ## At most one object -/

/-- After `front`, a `#` of the line can open a comment: it stands at the start of the line
or behind a blank. -/
structure Opens (line front comment : Text) : Prop where
  eq_append : line = front ++ '#' :: comment
  blank : ∀ c ∈ front.getLast?, Text.isBlank c = true

/-- Where one text is split twice at a `#`, the two are the same, or one lies in front of
the other. -/
theorem append_hash_cases {front₁ comment₁ front₂ comment₂ : Text}
    (h : front₁ ++ '#' :: comment₁ = front₂ ++ '#' :: comment₂) :
    (front₁ = front₂ ∧ comment₁ = comment₂) ∨
      (∃ between, front₂ = front₁ ++ '#' :: between ∧
        comment₁ = between ++ '#' :: comment₂) ∨
      ∃ between, front₁ = front₂ ++ '#' :: between ∧
        comment₂ = between ++ '#' :: comment₁ := by
  rcases List.append_eq_append_iff.1 h with ⟨a, hfront, hcomment⟩ | ⟨a, hfront, hcomment⟩
  · cases a with
    | nil =>
        left
        exact ⟨by simp [hfront], (List.cons.inj hcomment).2⟩
    | cons c a =>
        right
        left
        obtain ⟨rfl, hrest⟩ := List.cons.inj hcomment
        exact ⟨a, hfront, hrest⟩
  · cases a with
    | nil =>
        left
        exact ⟨by simp [hfront], (List.cons.inj hcomment).2.symm⟩
    | cons c a =>
        right
        right
        obtain ⟨rfl, hrest⟩ := List.cons.inj hcomment
        exact ⟨a, hfront, hrest⟩

/-- Between the `#` of two comments of a line there is a blank, directly before the second. -/
theorem Opens.exists_blank {line front between comment : Text}
    (h : Opens line (front ++ '#' :: between) comment) :
    ∃ before blank, between = before ++ [blank] ∧ Text.isBlank blank = true := by
  obtain rfl | ⟨before, blank, rfl⟩ := between.eq_nil_or_concat'
  · have hhash := h.blank '#' (by simp)
    exact absurd hhash (by decide)
  · refine ⟨before, blank, rfl, ?_⟩
    apply h.blank
    rw [← List.cons_append, ← List.append_assoc, List.getLast?_concat]
    rfl

/-- A comment in which another one that is an object stands is no object. -/
theorem Opens.not_holds {line front between comment : Text}
    (h : Opens line (front ++ '#' :: between) comment) {object nested : Json}
    (hnested : Holds comment nested) : ¬ Holds (between ++ '#' :: comment) object := by
  intro houter
  obtain ⟨before, blank, rfl, hblank⟩ := h.exists_blank
  have hend := houter.afterAll
  rw [List.append_assoc] at hend
  exact afterAll_nested hblank hnested.afterAll hend

/-- At most one comment of a line is an object. -/
theorem Opens.unique {line front₁ comment₁ front₂ comment₂ : Text}
    (h₁ : Opens line front₁ comment₁) (h₂ : Opens line front₂ comment₂) {object₁ object₂ : Json}
    (hobject₁ : Holds comment₁ object₁) (hobject₂ : Holds comment₂ object₂) :
    front₁ = front₂ ∧ comment₁ = comment₂ := by
  have hsplit := h₁.eq_append.symm.trans h₂.eq_append
  rcases append_hash_cases hsplit with hsame | ⟨between, rfl, rfl⟩ | ⟨between, rfl, rfl⟩
  · exact hsame
  · exact absurd hobject₁ (h₂.not_holds hobject₂)
  · exact absurd hobject₂ (h₁.not_holds hobject₁)

/-! ## The order of trying -/

theorem mem_commentTails_cons {opens : Bool} {c : Char} {rest comment : Text} :
    comment ∈ commentTails opens (c :: rest) ↔
      (c = '#' ∧ opens = true ∧ comment = rest) ∨
        comment ∈ commentTails (Text.isBlank c) rest := by
  rw [commentTails]
  by_cases hhere : c = '#' ∧ opens = true
  · simp [hhere.1, hhere.2]
  · have hcond : (c == '#' && opens) = false := by simpa using hhere
    simp only [hcond]
    constructor
    · intro h
      exact Or.inr h
    · intro h
      rcases h with ⟨hc, hopens, -⟩ | h
      · exact absurd ⟨hc, hopens⟩ hhere
      · exact h

/-- The comments that are tried stand behind a blank each, or at the very start of the text
if a `#` may open one there. -/
theorem mem_commentTails {opens : Bool} {line comment : Text} :
    comment ∈ commentTails opens line ↔
      ∃ front, line = front ++ '#' :: comment ∧ (front = [] → opens = true) ∧
        ∀ c ∈ front.getLast?, Text.isBlank c = true := by
  -- for what follows a character, that the character is a blank takes the place of `opens`
  induction line generalizing opens with
  | nil => simp [commentTails]
  | cons c rest ih =>
      rw [mem_commentTails_cons, ih]
      constructor
      · intro h
        rcases h with ⟨rfl, hopens, rfl⟩ | ⟨front, rfl, hfirst, hlast⟩
        · exact ⟨[], rfl, fun _ => hopens, by simp⟩
        · refine ⟨c :: front, rfl, by simp, ?_⟩
          intro d hd
          cases front with
          | nil =>
              obtain rfl : c = d := by simpa using hd
              exact hfirst rfl
          | cons e front => exact hlast d (by simpa using hd)
      · intro h
        obtain ⟨front, hsplit, hfirst, hlast⟩ := h
        cases front with
        | nil =>
            obtain ⟨rfl, rfl⟩ := List.cons.inj hsplit
            exact Or.inl ⟨rfl, hfirst rfl, rfl⟩
        | cons e front =>
            obtain ⟨rfl, rfl⟩ := List.cons.inj hsplit
            right
            refine ⟨front, rfl, ?_, ?_⟩
            · intro hnil
              subst hnil
              exact hlast c (by simp)
            · intro d hd
              apply hlast d
              rw [Option.mem_def] at hd ⊢
              rw [List.getLast?_cons, hd]
              rfl

/-- The comments that are tried are those of the line. -/
theorem mem_commentTails_iff {line comment : Text} :
    comment ∈ commentTails true line ↔ ∃ front, Opens line front comment := by
  rw [mem_commentTails]
  constructor
  · intro h
    obtain ⟨front, hsplit, -, hlast⟩ := h
    exact ⟨front, hsplit, hlast⟩
  · intro h
    obtain ⟨front, hopens⟩ := h
    exact ⟨front, hopens.eq_append, fun _ => rfl, hopens.blank⟩

/-- However the comments of a line are listed, the first that names something is the only
one. -/
theorem findSome?_readComment_eq_some_iff {line : Text} {order : List Text}
    (horder : ∀ comment, comment ∈ order ↔ ∃ front, Opens line front comment) {name : Text} :
    order.findSome? readComment = some name ↔
      ∃ front comment, Opens line front comment ∧ readComment comment = some name := by
  constructor
  · intro h
    obtain ⟨comment, hmem, hname⟩ := List.exists_of_findSome?_eq_some h
    obtain ⟨front, hopens⟩ := (horder comment).1 hmem
    exact ⟨front, comment, hopens, hname⟩
  · intro h
    obtain ⟨front, comment, hopens, hname⟩ := h
    have hsome : (order.findSome? readComment).isSome = true := by
      rw [List.findSome?_isSome_iff]
      exact ⟨comment, (horder comment).2 ⟨front, hopens⟩, by simp [hname]⟩
    obtain ⟨found, hfound⟩ := Option.isSome_iff_exists.1 hsome
    obtain ⟨comment', hmem', hname'⟩ := List.exists_of_findSome?_eq_some hfound
    obtain ⟨front', hopens'⟩ := (horder comment').1 hmem'
    obtain ⟨object, hobject, -⟩ := readComment_eq_some_iff.1 hname
    obtain ⟨object', hobject', -⟩ := readComment_eq_some_iff.1 hname'
    obtain ⟨-, rfl⟩ := hopens.unique hopens' hobject hobject'
    rw [hfound, ← hname', hname]

/-- A line refers to what one of its comments names. -/
theorem read_eq_some_iff {line name : Text} :
    read line = some name ↔
      ∃ front comment, Opens line front comment ∧ readComment comment = some name :=
  findSome?_readComment_eq_some_iff fun _ => mem_commentTails_iff

/-- At most one comment of a line is a JSON object.  If there is one, the line refers to
what this object names and to nothing else.  So it does not matter in which order the
comments are tried, nor whether some of them are tried again. -/
theorem object_unique (line : Text) :
    (∀ front₁ comment₁ object₁ front₂ comment₂ object₂,
      Opens line front₁ comment₁ → Holds comment₁ object₁ →
      Opens line front₂ comment₂ → Holds comment₂ object₂ →
      front₁ = front₂ ∧ comment₁ = comment₂) ∧
    (∀ front comment object, Opens line front comment → Holds comment object →
      read line = nameIn object) ∧
    ∀ order : List Text, (∀ comment, comment ∈ order ↔ ∃ front, Opens line front comment) →
      order.findSome? readComment = read line := by
  refine ⟨?_, ?_, ?_⟩
  · intro front₁ comment₁ object₁ front₂ comment₂ object₂ h₁ hobject₁ h₂ hobject₂
    exact h₁.unique h₂ hobject₁ hobject₂
  · intro front comment object hopens hobject
    apply Option.ext
    intro name
    rw [read_eq_some_iff]
    constructor
    · intro h
      obtain ⟨front', comment', hopens', hname⟩ := h
      obtain ⟨object', hobject', -⟩ := readComment_eq_some_iff.1 hname
      obtain ⟨-, rfl⟩ := hopens.unique hopens' hobject hobject'
      rw [← hobject.readComment_eq, hname]
    · intro hname
      refine ⟨front, comment, hopens, ?_⟩
      rw [hobject.readComment_eq, hname]
  · intro order horder
    apply Option.ext
    intro name
    rw [findSome?_readComment_eq_some_iff horder, read_eq_some_iff]

/-! ## A line with three comments to try -/

/-- What stands before the `#` of the reference; the value of the field has a `#` too. -/
def quotedFront : Text := "color: \x22a #b\x22 ".toList

/-- The reference, to a name with a `#` in it. -/
def hashedComment : Text := " \x7b\x22$openapi\x22:\x22x # y\x22\x7d".toList

/-- The general statement at the line, where the comments are tried from right to left. -/
theorem object_unique_quoted :
    (commentTails true (quotedFront ++ '#' :: hashedComment)).length = 3 ∧
    ∃ object, Opens (quotedFront ++ '#' :: hashedComment) quotedFront hashedComment ∧
      Holds hashedComment object ∧
      (∀ front comment object',
        Opens (quotedFront ++ '#' :: hashedComment) front comment → Holds comment object' →
        front = quotedFront ∧ comment = hashedComment) ∧
      read (quotedFront ++ '#' :: hashedComment) = nameIn object ∧
      nameIn object = some "x # y".toList ∧
      (commentTails true (quotedFront ++ '#' :: hashedComment)).reverse.findSome? readComment =
        read (quotedFront ++ '#' :: hashedComment) := by
  have hname : readComment hashedComment = some "x # y".toList := by decide +kernel
  obtain ⟨object, hobject, hnameIn⟩ := readComment_eq_some_iff.1 hname
  have hlast : quotedFront.getLast? = some ' ' := by decide +kernel
  have hopens : Opens (quotedFront ++ '#' :: hashedComment) quotedFront hashedComment := by
    refine ⟨rfl, ?_⟩
    rw [hlast]
    intro c hc
    obtain rfl : ' ' = c := Option.some.inj hc
    rfl
  obtain ⟨hunique, hread, horder⟩ := object_unique (quotedFront ++ '#' :: hashedComment)
  refine ⟨by decide +kernel, object, hopens, hobject, ?_, ?_, hnameIn, ?_⟩
  · intro front comment object' hopens' hobject'
    exact hunique front comment object' _ _ _ hopens' hobject' hopens hobject
  · exact hread _ _ _ hopens hobject
  · apply horder
    intro comment
    rw [List.mem_reverse]
    exact mem_commentTails_iff

end FieldReference

end SetterReport
