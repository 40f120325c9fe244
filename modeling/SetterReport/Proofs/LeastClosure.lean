import Mathlib.Algebra.BigOperators.Group.Finset.Basic
import Mathlib.Order.Bounds.Basic
import SetterReport.Proofs.SubstitutionClosure

/-!
# The least set of users

Which names count for a setter can be told without any search.  A set of names is closed
under use if it has the name of every substitution that refers to the setter or to a name
of the set.  `closure` goes by passes and skips the substitutions whose name it knows; the
set it ends with is closed, because its last pass adds nothing, and it lies in every closed
set, because every name in it is that of a substitution that uses the setter, and a use is
a derivation that a closed set cannot leave.

Where two substitutions share a name, one that is a user is enough for the name to be in the
set, and a name is in a set once.  Neither the order of the substitutions matters, though
the passes go by it, nor whether some are listed again.

## Main results

* `count_eq_sum_least` — a setter counts its own references and, once for each name of the
  least closed set, the references to that name.
* `count_congr` — the count depends only on which substitutions there are.
-/

namespace SetterReport.Usage

/-- A set of names has the name of every substitution that refers to the setter or to one
of the names. -/
def IsClosedUnderUse (setter : Text) (substitutions : List Substitution) (names : Set Text) :
    Prop :=
  ∀ s ∈ substitutions,
    (Reference.ofSetter setter ∈ s.references ∨
      ∃ m ∈ names, Reference.ofSubstitution m ∈ s.references) →
    s.name ∈ names

section Least

variable {setter : Text} {substitutions : List Substitution}

/-- The closure leaves no user out. -/
theorem isClosedUnderUse_dependents : IsClosedUnderUse setter substitutions
    {name | name ∈ (closure setter substitutions).dependents} := by
  have htargets := (isReached_closure setter substitutions).targets
  intro s hs href
  rcases href with href | ⟨m, hm, href⟩
  · apply name_mem_closure hs href
    rw [htargets]
    exact List.mem_cons_self
  · apply name_mem_closure hs href
    rw [htargets]
    exact List.mem_cons_of_mem _ (List.mem_map_of_mem hm)

/-- A closed set has the names of all substitutions that use the setter. -/
theorem Uses.name_mem {names : Set Text} (hclosed : IsClosedUnderUse setter substitutions names)
    {s : Substitution} (huses : Uses setter substitutions s) : s.name ∈ names := by
  -- the derivation of the use ends at the setter, and each step of it stays in the set
  induction huses with
  | direct hs href => exact hclosed _ hs (Or.inl href)
  | through hs _ href ih => exact hclosed _ hs (Or.inr ⟨_, ih, href⟩)

/-- The names in the closure are the least set that is closed under use. -/
theorem isLeast_dependents : IsLeast {names | IsClosedUnderUse setter substitutions names}
    {name | name ∈ (closure setter substitutions).dependents} := by
  constructor
  · exact isClosedUnderUse_dependents
  · intro names hclosed name hname
    obtain ⟨s, huses, rfl⟩ := mem_dependents_closure.1 hname
    exact huses.name_mem hclosed

/-- The names of all substitutions are closed under use. -/
theorem isClosedUnderUse_names :
    IsClosedUnderUse setter substitutions {name | ∃ s ∈ substitutions, s.name = name} := by
  intro s hs _
  exact ⟨s, hs, rfl⟩

end Least

/-! ## The count -/

/-- The count of a setter is the sum over the different names in the closure. -/
theorem count_eq_add_sum (setter : Text) (references : Text → Nat)
    (substitutions : List Substitution) :
    count setter references substitutions = references setter +
      ∑ name ∈ (closure setter substitutions).dependents.toFinset, references name := by
  unfold count
  rw [List.sum_toFinset references (isReached_closure setter substitutions).nodup]
  congr 1
  induction (closure setter substitutions).dependents with
  | nil => rfl
  | cons name rest ih => rw [List.foldr_cons, ih, List.map_cons, List.sum_cons]

/-- A setter counts the references to its own name, and those to each name of the least set
that is closed under use, each name once.  All of these are names of substitutions.  For a
name without references `references` is zero. -/
theorem count_eq_sum_least (setter : Text) (substitutions : List Substitution) :
    ∃ names : Finset Text,
      IsLeast {closed | IsClosedUnderUse setter substitutions closed} (names : Set Text) ∧
      (names : Set Text) ⊆ {name | ∃ s ∈ substitutions, s.name = name} ∧
      ∀ references : Text → Nat, count setter references substitutions =
        references setter + ∑ name ∈ names, references name := by
  have hleast : IsLeast {closed | IsClosedUnderUse setter substitutions closed}
      ((closure setter substitutions).dependents.toFinset : Set Text) := by
    rw [List.coe_toFinset]
    exact isLeast_dependents
  refine ⟨(closure setter substitutions).dependents.toFinset, hleast, ?_, ?_⟩
  · exact hleast.2 isClosedUnderUse_names
  · intro references
    exact count_eq_add_sum setter references substitutions

/-- The count depends only on which substitutions there are. -/
theorem count_congr {setter : Text} {references : Text → Nat} {a b : List Substitution}
    (h : ∀ s, s ∈ a ↔ s ∈ b) : count setter references a = count setter references b := by
  have hclosed : {names | IsClosedUnderUse setter a names} =
      {names | IsClosedUnderUse setter b names} := by
    ext names
    show IsClosedUnderUse setter a names ↔ IsClosedUnderUse setter b names
    unfold IsClosedUnderUse
    simp only [h]
  have hleast : IsLeast {names | IsClosedUnderUse setter b names}
      {name | name ∈ (closure setter a).dependents} := by
    rw [← hclosed]
    exact isLeast_dependents
  have hsame : (closure setter a).dependents.toFinset =
      (closure setter b).dependents.toFinset := by
    apply Finset.coe_injective
    rw [List.coe_toFinset, List.coe_toFinset]
    exact hleast.unique isLeast_dependents
  rw [count_eq_add_sum, count_eq_add_sum, hsame]

/-- In a cycle of two names, one of them that of two substitutions.  Only the second of the
two refers to the setter, and each name is found once. -/
example : (closure "tag".toList
    [{ name := "image".toList, references := ["latest".toList] },
      { name := "command".toList, references := [Reference.ofSubstitution "image".toList] },
      { name := "image".toList,
        references := [Reference.ofSetter "tag".toList,
          Reference.ofSubstitution "command".toList] }]).dependents =
    ["image".toList, "command".toList] := by
  decide +kernel

end SetterReport.Usage
