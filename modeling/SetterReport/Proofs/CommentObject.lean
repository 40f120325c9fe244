import SetterReport.FieldReference
import SetterReport.Proofs.JsonQuotes
import SetterReport.Proofs.Trimming

/-!
# Comments that are objects

What follows a `#` names something if it is a JSON object, blanks around it apart, and the
object has a name under one of the keys.  It is tried only if it starts with a brace, and
that loses nothing, because a trimmed text that is an object starts with one.

## Main results

* `Holds.afterAll` — a comment that is an object leads from outside all strings to outside.
* `readComment_eq_some_iff` — a comment names what the object in it names.
-/

namespace SetterReport

open Json Json.Standing

namespace Json

/-- The blanks between tokens are among those that are trimmed. -/
theorem text_isBlank_of_isBlank {c : Char} (h : isBlank c = true) : Text.isBlank c = true := by
  have hone : c = ' ' ∨ c = '\t' ∨ c = '\n' ∨ c = '\r' := by
    simpa [isBlank, or_assoc] using h
  rcases hone with rfl | rfl | rfl | rfl
  all_goals rfl

/-- The value of a number is no object. -/
theorem isObject_of_readNumber {t after : Text} {v : Json} (h : readNumber t = some (v, after)) :
    v.isObject = false := by
  unfold readNumber at h
  dsimp only at h
  split at h
  · obtain ⟨rfl, -⟩ := Prod.mk.inj (Option.some.inj h)
    rfl
  · simp at h

/-- A word is read as the value it stands for. -/
theorem eq_of_readWord {word t after : Text} {result v : Json}
    (h : readWord word result t = some (v, after)) : v = result := by
  obtain ⟨rest, -, hpair⟩ := Option.map_eq_some_iff.1 h
  exact (Prod.mk.inj hpair).1.symm

/-- An object starts with a brace. -/
theorem exists_brace_of_readValue {depth : Nat} {t after : Text} {v : Json}
    (h : readValue depth t = some (v, after)) (hv : v.isObject = true) :
    ∃ rest, t = '\x7b' :: rest := by
  unfold readValue at h
  split at h
  · obtain ⟨⟨s, last⟩, -, hpair⟩ := Option.map_eq_some_iff.1 h
    obtain ⟨rfl, -⟩ := Prod.mk.inj hpair
    simp [isObject] at hv
  · split at h
    · simp at h
    · obtain ⟨⟨xs, last⟩, -, hpair⟩ := Option.map_eq_some_iff.1 h
      obtain ⟨rfl, -⟩ := Prod.mk.inj hpair
      simp [isObject] at hv
  · exact ⟨_, rfl⟩
  · obtain rfl := eq_of_readWord h
    simp [isObject] at hv
  · obtain rfl := eq_of_readWord h
    simp [isObject] at hv
  · obtain rfl := eq_of_readWord h
    simp [isObject] at hv
  · rw [isObject_of_readNumber h] at hv
    simp at hv

/-- A trimmed text that is an object starts with a brace. -/
theorem exists_brace_of_read {t : Text} {v : Json} (h : read (Text.trim t) = some v)
    (hv : v.isObject = true) : ∃ rest, Text.trim t = '\x7b' :: rest := by
  have hskip : skipBlanks (Text.trim t) = Text.trim t := by
    cases htrim : Text.trim t with
    | nil => rfl
    | cons c rest =>
        have hfirst : Text.isBlank c = false := Text.isBlank_of_trim_eq_cons htrim
        have hc : isBlank c = false := by
          cases hblank : isBlank c with
          | false => rfl
          | true => exact absurd hfirst (by simp [text_isBlank_of_isBlank hblank])
        simp [skipBlanks, hc]
  unfold read at h
  obtain ⟨⟨v', after⟩, hvalue, h⟩ := Option.bind_eq_some_iff.1 h
  have hsame : v' = v := by
    simp only at h
    split at h
    · exact Option.some.inj h
    · simp at h
  rw [hskip, hsame] at hvalue
  exact exists_brace_of_readValue hvalue hv

end Json

namespace FieldReference

/-- Trimmed, a comment is a JSON object. -/
def Holds (comment : Text) (object : Json) : Prop :=
  Json.read (Text.trim comment) = some object ∧ object.isObject = true

theorem Holds.afterAll {comment : Text} {object : Json} (h : Holds comment object) :
    outside.afterAll comment = some outside := by
  obtain ⟨a, b, hcomment, ha, hb⟩ := Text.exists_trim comment
  have hread := afterAll_of_read h.1
  rw [hcomment, afterAll_append, afterAll_blanks (by decide) ha, Option.bind_some,
    afterAll_append, hread, Option.bind_some, afterAll_blanks (by decide) hb]

/-- A comment that is an object is read as the name in it. -/
theorem Holds.readComment_eq {comment : Text} {object : Json} (h : Holds comment object) :
    readComment comment = nameIn object := by
  obtain ⟨rest, htrim⟩ := exists_brace_of_read h.1 h.2
  have hread : Json.read ('\x7b' :: rest) = some object := htrim ▸ h.1
  unfold readComment
  rw [htrim]
  show (Json.read ('\x7b' :: rest)).bind nameIn = nameIn object
  rw [hread, Option.bind_some]

/-- Only an object names something. -/
theorem isObject_of_nameIn {object : Json} {name : Text} (h : nameIn object = some name) :
    object.isObject = true := by
  obtain ⟨key, -, hkey⟩ := List.exists_of_findSome?_eq_some h
  obtain ⟨v, hmember, -⟩ := Option.bind_eq_some_iff.1 hkey
  cases object with
  | object ms => rfl
  | null => simp [member?] at hmember
  | bool b => simp [member?] at hmember
  | number n => simp [member?] at hmember
  | string t => simp [member?] at hmember
  | array xs => simp [member?] at hmember

/-- A comment names what the object in it names. -/
theorem readComment_eq_some_iff {comment name : Text} :
    readComment comment = some name ↔
      ∃ object, Holds comment object ∧ nameIn object = some name := by
  constructor
  · intro h
    unfold readComment at h
    split at h
    · rename_i rest htrim
      obtain ⟨object, hread, hname⟩ := Option.bind_eq_some_iff.1 h
      exact ⟨object, ⟨htrim ▸ hread, isObject_of_nameIn hname⟩, hname⟩
    · simp at h
  · intro h
    obtain ⟨object, hholds, hname⟩ := h
    rw [hholds.readComment_eq, hname]

end FieldReference

end SetterReport
