import Mathlib.Data.List.Infix
import SetterReport.Reference

/-!
# What a reference points at

A reference that starts with `#/definitions/` and a kind marker points at a setter or at a
substitution; any other text is foreign.  Neither kind marker is a prefix of the other, so a
text is of one of these three kinds only, and what is displayed for it says which text it was.

Taking one prefix away is a partial inverse of putting it in front (`afterKind?_eq_some_iff`).
A name may itself begin with a prefix or be a whole reference; it is displayed as it is.

## Main result

* `existsUnique_shows` — every text is a foreign reference displayed as it is, the reference to
  a setter of the displayed name, or that to a substitution of this name, and only one of the
  three; the references to a name are displayed as the name.
-/

namespace SetterReport.Reference

/-- What follows a prefix is what it was put in front of. -/
theorem afterKind?_eq_some_iff {kind reference name : Text} :
    afterKind? kind reference = some name ↔ reference = definitions ++ kind ++ name := by
  unfold afterKind?
  simp only [Option.bind_eq_some_iff, List.isPrefixOf?_eq_some_iff_append_eq]
  constructor
  · rintro ⟨rest, rfl, rfl⟩
    exact (List.append_assoc ..).symm
  · rintro rfl
    exact ⟨kind ++ name, (List.append_assoc ..).symm, rfl⟩

theorem afterKind?_eq_none_iff {kind reference : Text} :
    afterKind? kind reference = none ↔ ¬definitions ++ kind <+: reference := by
  rw [Option.eq_none_iff_forall_ne_some]
  constructor
  · rintro h ⟨name, hname⟩
    exact h name (afterKind?_eq_some_iff.2 hname.symm)
  · intro h name hname
    exact h ⟨name, (afterKind?_eq_some_iff.1 hname).symm⟩

/-- No text is a reference of both kinds. -/
theorem ofSetter_ne_ofSubstitution (a b : Text) : ofSetter a ≠ ofSubstitution b := by
  intro h
  have hsetter : definitions ++ setterKind <+: ofSetter a := List.prefix_append _ _
  have hsubstitution : definitions ++ substitutionKind <+: ofSetter a := ⟨b, h.symm⟩
  have hmarkers : definitions ++ setterKind <+: definitions ++ substitutionKind :=
    List.prefix_of_prefix_length_le hsetter hsubstitution (by decide)
  revert hmarkers
  decide

theorem display_ofSetter (name : Text) : display (ofSetter name) = name := by
  have hsetter : afterKind? setterKind (ofSetter name) = some name :=
    afterKind?_eq_some_iff.2 rfl
  simp [display, hsetter]

theorem display_ofSubstitution (name : Text) : display (ofSubstitution name) = name := by
  have hsetter : afterKind? setterKind (ofSubstitution name) = none := by
    refine Option.eq_none_iff_forall_ne_some.2 ?_
    intro other hother
    exact ofSetter_ne_ofSubstitution other name (afterKind?_eq_some_iff.1 hother).symm
  have hsubstitution : afterKind? substitutionKind (ofSubstitution name) = some name :=
    afterKind?_eq_some_iff.2 rfl
  simp [display, hsetter, hsubstitution]

/-- A text that starts with the prefix of neither kind. -/
def IsForeign (reference : Text) : Prop :=
  ¬definitions ++ setterKind <+: reference ∧ ¬definitions ++ substitutionKind <+: reference

theorem not_isForeign_ofSetter (name : Text) : ¬IsForeign (ofSetter name) :=
  fun h => h.1 (List.prefix_append _ _)

theorem not_isForeign_ofSubstitution (name : Text) : ¬IsForeign (ofSubstitution name) :=
  fun h => h.2 (List.prefix_append _ _)

theorem display_of_isForeign {reference : Text} (h : IsForeign reference) :
    display reference = reference := by
  simp [display, afterKind?_eq_none_iff.2 h.1, afterKind?_eq_none_iff.2 h.2]

/-- What a text can point at. -/
inductive Target
  | foreign
  | setter
  | substitution

/-- A text points at this target, and is told to a reader by `shown`. -/
def Target.Shows (reference shown : Text) : Target → Prop
  | foreign => IsForeign reference ∧ shown = reference
  | setter => reference = ofSetter shown
  | substitution => reference = ofSubstitution shown

/-- Whatever a text points at, it is displayed accordingly. -/
theorem exists_shows (reference : Text) :
    ∃ target : Target, target.Shows reference (display reference) := by
  cases hsetter : afterKind? setterKind reference with
  | some name =>
      obtain rfl : reference = ofSetter name := afterKind?_eq_some_iff.1 hsetter
      exact ⟨.setter, congrArg ofSetter (display_ofSetter name).symm⟩
  | none =>
      cases hsubstitution : afterKind? substitutionKind reference with
      | some name =>
          obtain rfl : reference = ofSubstitution name := afterKind?_eq_some_iff.1 hsubstitution
          exact ⟨.substitution, congrArg ofSubstitution (display_ofSubstitution name).symm⟩
      | none =>
          have hforeign : IsForeign reference :=
            ⟨afterKind?_eq_none_iff.1 hsetter, afterKind?_eq_none_iff.1 hsubstitution⟩
          exact ⟨.foreign, hforeign, display_of_isForeign hforeign⟩

/-- A text points at one target only, whatever is shown of it. -/
theorem Target.Shows.unique {reference a b : Text} {s t : Target} (hs : s.Shows reference a)
    (ht : t.Shows reference b) : s = t := by
  cases s <;> cases t
  case foreign.foreign => rfl
  case setter.setter => rfl
  case substitution.substitution => rfl
  case foreign.setter =>
    obtain rfl : reference = ofSetter b := ht
    exact absurd hs.1 (not_isForeign_ofSetter b)
  case foreign.substitution =>
    obtain rfl : reference = ofSubstitution b := ht
    exact absurd hs.1 (not_isForeign_ofSubstitution b)
  case setter.foreign =>
    obtain rfl : reference = ofSetter a := hs
    exact absurd ht.1 (not_isForeign_ofSetter a)
  case substitution.foreign =>
    obtain rfl : reference = ofSubstitution a := hs
    exact absurd ht.1 (not_isForeign_ofSubstitution a)
  case setter.substitution =>
    exact absurd (Eq.trans (Eq.symm hs) ht) (ofSetter_ne_ofSubstitution a b)
  case substitution.setter =>
    exact absurd (Eq.trans (Eq.symm ht) hs) (ofSetter_ne_ofSubstitution b a)

/-- Displaying is a partial inverse of building references.  A text is either foreign and
displayed as it is, or it is the reference to the setter of the displayed name, or that to the
substitution of this name, and never two of these; and a name comes back from its references,
whatever it begins with. -/
theorem existsUnique_shows (reference : Text) :
    (∃! target : Target, target.Shows reference (display reference)) ∧
      ∀ name, display (ofSetter name) = name ∧ display (ofSubstitution name) = name := by
  refine ⟨?_, fun name => ⟨display_ofSetter name, display_ofSubstitution name⟩⟩
  obtain ⟨target, htarget⟩ := exists_shows reference
  exact ⟨target, htarget, fun _ hother => hother.unique htarget⟩

/-- Of the reference to a setter that is named like a reference, one prefix is taken away. -/
example : display (ofSetter (ofSubstitution ['x'])) = ofSubstitution ['x'] := by decide

end SetterReport.Reference
