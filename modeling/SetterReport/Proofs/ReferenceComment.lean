import SetterReport.Proofs.CommentObject
import SetterReport.Proofs.JsonString

/-!
# Reading back a reference

The reference of a field is written behind the field, in a comment that holds an
object with one member.  It is read back whatever stands before it on the line, also
if that holds a `#` that could itself open a comment.

Such an earlier comment would have to hold the written one, and then it is no JSON:
the `#` of the written comment stands outside all strings, or it stands in a string
and the first quote after it, that of the key, ends this string.  Then the `$` of the
key, or the backslash that escapes it, stands outside all strings.

## Main result

* `read_comment` — a reference is read back from the end of every line.
-/

namespace SetterReport

open Json Json.Standing

namespace FieldReference

/-! ## Comments that are no references -/

/-- A comment that names something leads from outside all strings to outside. -/
theorem afterAll_of_readComment {tail name : Text} (h : readComment tail = some name) :
    outside.afterAll tail = some outside := by
  obtain ⟨object, hobject, -⟩ := readComment_eq_some_iff.1 h
  exact hobject.afterAll

/-- The text between the quotes of a key starts with its `$` or with a backslash. -/
theorem exists_key_head {key body : Text} (hkey : key ∈ keys) (h : Spells body key) :
    ∃ first rest, body = first :: rest ∧ (first = '$' ∨ first = '\\') := by
  obtain ⟨rest, rfl⟩ : ∃ rest, key = '$' :: rest := by
    rcases (by simpa [keys] using hkey : key = _ ∨ key = _) with rfl | rfl
    · exact ⟨_, rfl⟩
    · exact ⟨_, rfl⟩
  cases h with
  | self => exact ⟨_, _, rfl, Or.inl rfl⟩
  | letter => exact ⟨_, _, rfl, Or.inr rfl⟩
  | code => exact ⟨_, _, rfl, Or.inr rfl⟩
  | pair => exact ⟨_, _, rfl, Or.inr rfl⟩

section Comment

variable {key name gap object : Text}

/-- No JSON text goes on with a `#` and an object that has a key: outside strings the `#`
cannot stand, and a string ends at the quote before the key. -/
theorem afterAll_comment (hkey : key ∈ keys) (hgap : ∀ x ∈ gap, Text.isBlank x = true)
    (hobject : IsOneMember key name object) {s : Standing} (hs : s ≠ escaped) (trail : Text) :
    s.afterAll ('#' :: (gap ++ object ++ trail)) = none := by
  cases s with
  | escaped => exact absurd rfl hs
  | outside => rfl
  | inside =>
      obtain ⟨ha, hbody, hb, hc, hname, hd⟩ := hobject
      rename_i a b c d keyBody nameBody
      obtain ⟨first, rest, rfl, hfirst⟩ := exists_key_head hkey hbody
      have hgap' : inside.afterAll gap = some inside := afterAll_blanks (by decide) hgap
      have ha' : inside.afterAll a = some inside :=
        afterAll_of_forall fun x hx => after_isBlank (by decide) (ha x hx)
      have hnone : outside.after first = none := by
        rcases hfirst with rfl | rfl <;> rfl
      have hhash : inside.after '#' = some inside := rfl
      have hbrace : inside.after '\x7b' = some inside := rfl
      have hquote : inside.after '\x22' = some outside := rfl
      simp only [afterAll_cons, afterAll_append, List.append_assoc, List.cons_append, hhash, hgap',
        hbrace, ha', hquote, hnone, Option.bind_some, Option.bind_none]

/-- A comment that holds the written one behind a blank names nothing. -/
theorem readComment_eq_none (hkey : key ∈ keys) (hgap : ∀ x ∈ gap, Text.isBlank x = true)
    (hobject : IsOneMember key name object) (before : Text) {blank : Char}
    (hblank : Text.isBlank blank = true) (trail : Text) :
    readComment (before ++ [blank] ++ '#' :: (gap ++ object ++ trail)) = none := by
  cases hread : readComment (before ++ [blank] ++ '#' :: (gap ++ object ++ trail)) with
  | none => rfl
  | some found =>
      exfalso
      have hall := afterAll_of_readComment hread
      rw [afterAll_append] at hall
      obtain ⟨s, hs, hrest⟩ := Option.bind_eq_some_iff.1 hall
      have hne : s ≠ escaped := by
        rw [afterAll_append] at hs
        obtain ⟨r, -, hr⟩ := Option.bind_eq_some_iff.1 hs
        exact ne_escaped_of_after_blank hblank (by simpa using hr)
      rw [afterAll_comment hkey hgap hobject hne] at hrest
      simp at hrest

/-- The written comment names what it was written for. -/
theorem readComment_eq_some {trail : Text} (hkey : key ∈ keys)
    (hgap : ∀ x ∈ gap, Text.isBlank x = true) (hobject : IsOneMember key name object)
    (htrail : ∀ x ∈ trail, Text.isBlank x = true) :
    readComment (gap ++ object ++ trail) = some name := by
  have hread := read_of_isOneMember hobject
  have hname : nameIn (.object [(key, .string name)]) = some name := by
    rcases (by simpa [keys] using hkey : key = _ ∨ key = _) with rfl | rfl <;>
      simp [nameIn, keys, member?, text?]
  obtain ⟨middle, rfl⟩ : ∃ middle, object = '\x7b' :: (middle ++ ['\x7d']) := by
    cases hobject with
    | @mk a b c d keyBody nameBody =>
        exact ⟨a ++ '\x22' :: (keyBody ++ '\x22' :: (b ++ ':' ::
          (c ++ '\x22' :: (nameBody ++ '\x22' :: d)))), by simp⟩
  have htrim : Text.trim (gap ++ '\x7b' :: (middle ++ ['\x7d']) ++ trail) =
      '\x7b' :: (middle ++ ['\x7d']) := by
    rw [List.append_assoc]
    exact Text.trim_append hgap htrail (by decide) (by decide)
  unfold readComment
  rw [htrim]
  show (Json.read ('\x7b' :: (middle ++ ['\x7d']))).bind nameIn = some name
  rw [hread, Option.bind_some, hname]

end Comment

/-! ## The line -/

/-- The last comment decides if no comment before it does. -/
theorem findSome?_commentTails {rest name : Text} (hlast : readComment rest = some name) :
    ∀ (front : Text) (opens : Bool),
      (front = [] → opens = true) →
      (∀ c, front.getLast? = some c → Text.isBlank c = true) →
      (∀ before tail, front = before ++ '#' :: tail → readComment (tail ++ '#' :: rest) = none) →
      (commentTails opens (front ++ '#' :: rest)).findSome? readComment = some name := by
  intro front
  induction front with
  | nil =>
      intro opens hopens hblank hearlier
      simp [commentTails, hopens rfl, hlast]
  | cons c front ih =>
      intro opens hopens hblank hearlier
      have hlater : (commentTails (Text.isBlank c) (front ++ '#' :: rest)).findSome? readComment =
          some name := by
        apply ih
        · rintro rfl
          exact hblank c rfl
        · intro d hd
          refine hblank d ?_
          rw [List.getLast?_cons, hd]
          rfl
        · intro before tail hsplit
          exact hearlier (c :: before) tail (by rw [hsplit, List.cons_append])
      rw [List.cons_append, commentTails]
      split
      · rename_i hhash
        obtain rfl : c = '#' := by
          simp only [Bool.and_eq_true, beq_iff_eq] at hhash
          exact hhash.1
        rw [List.findSome?_cons, hearlier [] front rfl]
        exact hlater
      · exact hlater

/-- A reference is read back from the end of every line, whatever stands before it. -/
theorem read_comment {key name front gap object trail : Text} (hkey : key ∈ keys)
    (hfront : ∀ c, front.getLast? = some c → Text.isBlank c = true)
    (hgap : ∀ x ∈ gap, Text.isBlank x = true) (hobject : IsOneMember key name object)
    (htrail : ∀ x ∈ trail, Text.isBlank x = true) :
    read (front ++ '#' :: (gap ++ object ++ trail)) = some name := by
  unfold read
  refine findSome?_commentTails (readComment_eq_some hkey hgap hobject htrail) front true
    (fun _ => rfl) hfront ?_
  intro before tail hsplit
  -- the front ends in a blank, so something stands between the two comments
  obtain rfl | ⟨tail, blank, rfl⟩ := tail.eq_nil_or_concat'
  · have hhash := hfront '#' (by simp [hsplit])
    exact absurd hhash (by decide)
  · have hend : front = before ++ '#' :: tail ++ [blank] := by
      simpa using hsplit
    have hblank : Text.isBlank blank = true := hfront blank (by rw [hend, List.getLast?_concat])
    exact readComment_eq_none hkey hgap hobject tail hblank trail

/-- Behind a comment that breaks off in a string, and with a name that has a quote, a
backslash, a line feed and the start of a comment in it. -/
theorem read_comment_nested :
    "$kpt-set".toList ∈ keys ∧
      read ("a # \x7b\x22$openapi\x22:\x22b ".toList ++ '#' :: (" ".toList ++
        writtenObject "$kpt-set".toList "\x22\\\n # \x7b".toList ++ "\t".toList)) =
          some "\x22\\\n # \x7b".toList :=
  ⟨by simp [keys],
    read_comment (by simp [keys]) (by simp [Text.isBlank]) (by simp [Text.isBlank])
      (isOneMember_writtenObject _ _) (by simp [Text.isBlank])⟩

end FieldReference

end SetterReport
