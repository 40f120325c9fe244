import Mathlib.Data.List.Perm.Subperm
import SetterReport.Usage

/-!
# The substitutions that use a setter

`Uses` says when a substitution uses a setter, directly or through others, by
derivation and without any bound.  `closure` computes the names of these
substitutions by passes that stop when one adds nothing.  Every reach on the way
satisfies `IsReached`: what is known is sound, and each name is known once.  A
pass that adds something adds a name, and there are no more names than
substitutions, so the last pass adds nothing; a reach to which nothing is added
is complete.

## Main result

* `mem_dependents_closure` — the closure holds exactly the names of the
  substitutions that use the setter.
-/

namespace SetterReport.Usage

/-- A substitution refers to the setter or to a substitution that uses it. -/
inductive Uses (setter : Text) (substitutions : List Substitution) : Substitution → Prop
  | direct {s : Substitution} (hs : s ∈ substitutions)
      (href : Reference.ofSetter setter ∈ s.references) : Uses setter substitutions s
  | through {s t : Substitution} (hs : s ∈ substitutions) (ht : Uses setter substitutions t)
      (href : Reference.ofSubstitution t.name ∈ s.references) : Uses setter substitutions s

theorem Uses.mem {setter : Text} {substitutions : List Substitution} {s : Substitution}
    (h : Uses setter substitutions s) : s ∈ substitutions := by
  cases h with
  | direct hs => exact hs
  | through hs => exact hs

/-! ## The invariant -/

/-- What holds of every reach on the way to the closure. -/
structure IsReached (setter : Text) (substitutions : List Substitution) (r : Reach) :
    Prop where
  targets : r.targets =
    Reference.ofSetter setter :: r.dependents.map Reference.ofSubstitution
  nodup : r.dependents.Nodup
  sound : ∀ name ∈ r.dependents, ∃ s, Uses setter substitutions s ∧ s.name = name

section Invariant

variable {setter : Text} {substitutions : List Substitution} {r : Reach}

theorem isReached_initial : IsReached setter substitutions (Reach.initial setter) :=
  ⟨rfl, List.nodup_nil, by simp [Reach.initial]⟩

theorem IsReached.add (h : IsReached setter substitutions r) {s : Substitution}
    (hs : s ∈ substitutions) : IsReached setter substitutions (r.add s) := by
  unfold Reach.add
  split
  · exact h
  · rename_i hnew
    have hname : s.name ∉ r.dependents := by simpa using hnew
    split
    · rename_i hpoints
      obtain ⟨ref, href, htarget⟩ := List.any_eq_true.1 hpoints
      have huses : Uses setter substitutions s := by
        have hmem : ref ∈ r.targets := by simpa using htarget
        rw [h.targets] at hmem
        rcases List.mem_cons.1 hmem with rfl | hmem
        · exact .direct hs href
        · obtain ⟨name, hname, rfl⟩ := List.mem_map.1 hmem
          obtain ⟨t, ht, rfl⟩ := h.sound name hname
          exact .through hs ht href
      refine ⟨?_, ?_, ?_⟩
      · simp [h.targets]
      · exact List.nodup_append.2 ⟨h.nodup, by simp, by
          intro a ha b hb
          obtain rfl : b = s.name := by simpa using hb
          exact fun hab => hname (hab ▸ ha)⟩
      · intro name hmem
        rcases List.mem_append.1 hmem with hmem | hmem
        · exact h.sound name hmem
        · obtain rfl : name = s.name := by simpa using hmem
          exact ⟨s, huses, rfl⟩
    · exact h

theorem IsReached.foldl (h : IsReached setter substitutions r) {listed : List Substitution}
    (hlisted : ∀ s ∈ listed, s ∈ substitutions) :
    IsReached setter substitutions (listed.foldl Reach.add r) := by
  induction listed generalizing r with
  | nil => exact h
  | cons s rest ih =>
      exact ih (h.add (hlisted s (by simp))) fun t ht => hlisted t (by simp [ht])

theorem IsReached.pass (h : IsReached setter substitutions r) :
    IsReached setter substitutions (r.pass substitutions) :=
  h.foldl fun _ hs => hs

theorem IsReached.saturate (h : IsReached setter substitutions r) (fuel : Nat) :
    IsReached setter substitutions (r.saturate substitutions fuel) := by
  induction fuel generalizing r with
  | zero => exact h
  | succ fuel ih =>
      simp only [Reach.saturate]
      split
      · exact h
      · exact ih h.pass

/-- Every name in a reach is that of a substitution. -/
theorem IsReached.subset_names (h : IsReached setter substitutions r) :
    r.dependents ⊆ substitutions.map (·.name) := by
  intro name hname
  obtain ⟨s, huses, rfl⟩ := h.sound name hname
  exact List.mem_map.2 ⟨s, huses.mem, rfl⟩

/-- There are no more names than substitutions. -/
theorem IsReached.length_le (h : IsReached setter substitutions r) :
    r.dependents.length ≤ substitutions.length := by
  simpa using (List.subperm_of_subset h.nodup h.subset_names).length_le

end Invariant

/-! ## Progress -/

/-- Adding changes nothing, or it adds one name. -/
theorem Reach.add_eq_or (r : Reach) (s : Substitution) :
    r.add s = r ∨ (r.add s).dependents.length = r.dependents.length + 1 := by
  unfold Reach.add
  split
  · exact Or.inl rfl
  · split
    · exact Or.inr (by simp)
    · exact Or.inl rfl

theorem Reach.foldl_eq_or (listed : List Substitution) (r : Reach) :
    listed.foldl Reach.add r = r ∨
      r.dependents.length < (listed.foldl Reach.add r).dependents.length := by
  induction listed generalizing r with
  | nil => exact Or.inl rfl
  | cons s rest ih =>
      rw [List.foldl_cons]
      rcases r.add_eq_or s with hadd | hadd
      · rw [hadd]
        exact ih r
      · right
        rcases ih (r.add s) with hrest | hrest
        · rw [hrest]
          omega
        · omega

/-- A pass that adds nothing finds nothing to add at any substitution. -/
theorem Reach.add_eq_of_foldl_eq {listed : List Substitution} {r : Reach}
    (h : listed.foldl Reach.add r = r) : ∀ s ∈ listed, r.add s = r := by
  induction listed generalizing r with
  | nil => simp
  | cons s rest ih =>
      rw [List.foldl_cons] at h
      have hfirst : r.add s = r := by
        rcases r.add_eq_or s with hadd | hadd
        · exact hadd
        · rcases Reach.foldl_eq_or rest (r.add s) with hrest | hrest
          · exact hrest.symm.trans h
          · rw [h] at hrest
            omega
      rw [hfirst] at h
      intro t ht
      rcases List.mem_cons.1 ht with rfl | ht
      · exact hfirst
      · exact ih h t ht

/-- With enough fuel the last pass adds nothing. -/
theorem IsReached.pass_saturate {setter : Text} {substitutions : List Substitution}
    {r : Reach} (h : IsReached setter substitutions r) {fuel : Nat}
    (hfuel : substitutions.length < r.dependents.length + fuel) :
    (r.saturate substitutions fuel).pass substitutions = r.saturate substitutions fuel := by
  induction fuel generalizing r with
  | zero => exact absurd h.length_le (by omega)
  | succ fuel ih =>
      simp only [Reach.saturate]
      split
      · exact ‹r.pass substitutions = r›
      · rename_i hchanged
        have hgrew := (Reach.foldl_eq_or substitutions r).resolve_left hchanged
        refine ih h.pass ?_
        unfold Reach.pass
        omega

/-! ## The closure -/

theorem isReached_closure (setter : Text) (substitutions : List Substitution) :
    IsReached setter substitutions (closure setter substitutions) :=
  isReached_initial.saturate _

/-- A pass over the closure adds nothing. -/
theorem pass_closure (setter : Text) (substitutions : List Substitution) :
    (closure setter substitutions).pass substitutions = closure setter substitutions :=
  isReached_initial.pass_saturate (by simp [Reach.initial])

/-- A substitution that points at a target of the closure is in the closure. -/
theorem name_mem_closure {setter : Text} {substitutions : List Substitution}
    {s : Substitution} (hs : s ∈ substitutions) {ref : Text} (href : ref ∈ s.references)
    (htarget : ref ∈ (closure setter substitutions).targets) :
    s.name ∈ (closure setter substitutions).dependents := by
  have hadd := Reach.add_eq_of_foldl_eq (pass_closure setter substitutions) s hs
  by_contra hnew
  have hpoints : s.references.any (closure setter substitutions).targets.contains = true :=
    List.any_eq_true.2 ⟨ref, href, by simpa using htarget⟩
  unfold Reach.add at hadd
  rw [if_neg (by simpa using hnew), if_pos hpoints] at hadd
  have hlength := congrArg (fun r => r.dependents.length) hadd
  simp at hlength

/-- The closure holds exactly the names of the substitutions that use the setter. -/
theorem mem_dependents_closure {setter : Text} {substitutions : List Substitution}
    {name : Text} : name ∈ (closure setter substitutions).dependents ↔
      ∃ s, Uses setter substitutions s ∧ s.name = name := by
  have hreached := isReached_closure setter substitutions
  constructor
  · exact hreached.sound name
  · rintro ⟨s, huses, rfl⟩
    induction huses with
    | direct hs href =>
        exact name_mem_closure hs href (by simp [hreached.targets])
    | through hs _ href ih =>
        refine name_mem_closure hs href ?_
        rw [hreached.targets]
        exact List.mem_cons_of_mem _ (List.mem_map.2 ⟨_, ih, rfl⟩)

end SetterReport.Usage
