import Mathlib.Data.Finset.Card
import Mathlib.Data.Nat.Find
import SetterReport.Proofs.SubstitutionClosure

/-!
# The passes of the search for users

The search for the substitutions that use a setter has no bound of its own: it goes over all
substitutions again until a pass adds nothing.  `afterPasses` is the reach after so many passes,
whether or not the search goes on for so long, and `SettlesAfter` says which of the passes is
the last one.

What ends the search is that names are added, not substitutions.  A reach has each name once
and only names of substitutions, so with every pass that adds something there are fewer names
left.  This needs nothing of the references: they may point at their own substitution, run in
circles or lead nowhere, and substitutions may share their names.

## Main result

* `existsUnique_settlesAfter` — there is exactly one last pass, its number is at most that of the
  different names and one more, and `closure` is the reach it ends with; and what `IsReached`
  says of the two lists holds between any two substitutions of any pass.
-/

namespace SetterReport.Usage

/-- The reach after some passes. -/
def afterPasses (setter : Text) (substitutions : List Substitution) : (passes : Nat) → Reach
  | 0 => Reach.initial setter
  | passes + 1 => (afterPasses setter substitutions passes).pass substitutions

theorem afterPasses_succ (setter : Text) (substitutions : List Substitution) (passes : Nat) :
    afterPasses setter substitutions (passes + 1) =
      (afterPasses setter substitutions passes).pass substitutions := rfl

/-- So many passes add a name at least, and the one that follows them adds none. -/
structure SettlesAfter (setter : Text) (substitutions : List Substitution) (passes : Nat) :
    Prop where
  adds : ∀ n < passes, ∃ new, new ≠ [] ∧
    (afterPasses setter substitutions (n + 1)).dependents =
      (afterPasses setter substitutions n).dependents ++ new
  settled : afterPasses setter substitutions (passes + 1) =
    afterPasses setter substitutions passes

/-! ## What a pass adds -/

theorem Reach.isPrefix_add (r : Reach) (s : Substitution) :
    r.dependents <+: (r.add s).dependents := by
  unfold Reach.add
  split
  · exact List.prefix_refl _
  · split
    · exact List.prefix_append _ _
    · exact List.prefix_refl _

theorem Reach.isPrefix_foldl (listed : List Substitution) (r : Reach) :
    r.dependents <+: (listed.foldl Reach.add r).dependents := by
  induction listed generalizing r with
  | nil => exact List.prefix_refl _
  | cons s rest ih => exact (r.isPrefix_add s).trans (ih (r.add s))

/-- A pass that changes the reach puts names behind those that were there. -/
theorem Reach.exists_new {substitutions : List Substitution} {r : Reach}
    (h : r.pass substitutions ≠ r) :
    ∃ new, new ≠ [] ∧ (r.pass substitutions).dependents = r.dependents ++ new := by
  obtain ⟨new, hnew⟩ := Reach.isPrefix_foldl substitutions r
  refine ⟨new, ?_, hnew.symm⟩
  rintro rfl
  have hgrew := (Reach.foldl_eq_or substitutions r).resolve_left h
  rw [← hnew, List.append_nil] at hgrew
  exact absurd hgrew (lt_irrefl _)

section Passes

variable {setter : Text} {substitutions : List Substitution}

theorem isReached_afterPasses (passes : Nat) :
    IsReached setter substitutions (afterPasses setter substitutions passes) := by
  induction passes with
  | zero => exact isReached_initial
  | succ passes ih => exact ih.pass

/-! ## The bound of the search -/

/-- After a pass that changes nothing no pass does. -/
theorem afterPasses_add {passes : Nat}
    (h : afterPasses setter substitutions (passes + 1) = afterPasses setter substitutions passes)
    (more : Nat) :
    afterPasses setter substitutions (passes + more) =
      afterPasses setter substitutions passes := by
  induction more with
  | zero => rfl
  | succ more ih =>
      calc afterPasses setter substitutions (passes + (more + 1))
          = (afterPasses setter substitutions (passes + more)).pass substitutions :=
            afterPasses_succ setter substitutions (passes + more)
        _ = (afterPasses setter substitutions passes).pass substitutions := by rw [ih]
        _ = afterPasses setter substitutions passes := h

/-- A search with a bound on its passes is as far as without it after so many of them. -/
theorem saturate_afterPasses (passes bound : Nat) :
    (afterPasses setter substitutions passes).saturate substitutions bound =
      afterPasses setter substitutions (passes + bound) := by
  induction bound generalizing passes with
  | zero => rfl
  | succ bound ih =>
      simp only [Reach.saturate]
      split
      · rename_i hsettled
        exact (afterPasses_add hsettled (bound + 1)).symm
      · have hrest := ih (passes + 1)
        rw [Nat.succ_add_eq_add_succ] at hrest
        exact hrest

theorem closure_eq_afterPasses (setter : Text) (substitutions : List Substitution) :
    closure setter substitutions =
      afterPasses setter substitutions (substitutions.length + 1) := by
  have hsearch : (afterPasses setter substitutions 0).saturate substitutions
      (substitutions.length + 1) = _ := saturate_afterPasses 0 _
  rwa [Nat.zero_add] at hsearch

/-! ## The last pass -/

theorem exists_settlesAfter (setter : Text) (substitutions : List Substitution) :
    ∃ passes, SettlesAfter setter substitutions passes := by
  have hsettled : ∃ passes, afterPasses setter substitutions (passes + 1) =
      afterPasses setter substitutions passes := by
    refine ⟨substitutions.length + 1, ?_⟩
    rw [afterPasses_succ, ← closure_eq_afterPasses]
    exact pass_closure setter substitutions
  -- the first pass that changes nothing is the last one
  refine ⟨Nat.find hsettled, fun n hn => ?_, Nat.find_spec hsettled⟩
  exact Reach.exists_new (Nat.find_min hsettled hn)

theorem SettlesAfter.unique {a b : Nat} (ha : SettlesAfter setter substitutions a)
    (hb : SettlesAfter setter substitutions b) : a = b := by
  have hne : ∀ {passes n}, SettlesAfter setter substitutions passes → n < passes →
      afterPasses setter substitutions (n + 1) ≠ afterPasses setter substitutions n := by
    intro passes n h hn hsame
    obtain ⟨new, hne, hnew⟩ := h.adds n hn
    rw [hsame] at hnew
    exact hne (List.self_eq_append_right.1 hnew)
  rcases lt_trichotomy a b with hlt | heq | hlt
  · exact absurd ha.settled (hne hb hlt)
  · exact heq
  · exact absurd hb.settled (hne ha hlt)

/-- There is a name for each pass that adds one. -/
theorem SettlesAfter.le_length {passes : Nat} (h : SettlesAfter setter substitutions passes) :
    ∀ n ≤ passes, n ≤ (afterPasses setter substitutions n).dependents.length := by
  intro n hn
  induction n with
  | zero => exact Nat.zero_le _
  | succ n ih =>
      have hbefore := ih (by omega)
      obtain ⟨new, hne, hnew⟩ := h.adds n (by omega)
      have hpos := List.length_pos_of_ne_nil hne
      rw [hnew, List.length_append]
      omega

/-- A reach has no more names than there are different ones. -/
theorem IsReached.length_le_card {r : Reach} (h : IsReached setter substitutions r) :
    r.dependents.length ≤ (substitutions.map (·.name)).toFinset.card := by
  have hsub : r.dependents.toFinset ⊆ (substitutions.map (·.name)).toFinset := by
    intro name hname
    rw [List.mem_toFinset] at hname ⊢
    exact h.subset_names hname
  rw [← List.toFinset_card_of_nodup h.nodup]
  exact Finset.card_le_card hsub

theorem SettlesAfter.le_card {passes : Nat} (h : SettlesAfter setter substitutions passes) :
    passes ≤ (substitutions.map (·.name)).toFinset.card :=
  (h.le_length passes le_rfl).trans (isReached_afterPasses passes).length_le_card

/-- The search is not cut off before its last pass. -/
theorem SettlesAfter.closure_eq {passes : Nat} (h : SettlesAfter setter substitutions passes) :
    closure setter substitutions = afterPasses setter substitutions passes := by
  have hnames : (substitutions.map (·.name)).toFinset.card ≤ substitutions.length := by
    simpa using List.toFinset_card_le (substitutions.map (·.name))
  have hpasses := h.le_card
  obtain ⟨more, hmore⟩ : ∃ more, substitutions.length + 1 = passes + more :=
    Nat.exists_eq_add_of_le (by omega)
  rw [closure_eq_afterPasses, hmore]
  exact afterPasses_add h.settled more

end Passes

/-- The search ends.  It settles after a number of passes, the pass that follows them is its
last, and its passes are at most the different names and one more.  The closure is the reach
that it ends with.  Within any pass, whichever substitutions have been looked at, the names are
different and names of substitutions, and the targets are the setter and these names as
references, in the same order. -/
theorem existsUnique_settlesAfter (setter : Text) (substitutions : List Substitution) :
    (∃! passes, SettlesAfter setter substitutions passes) ∧
    (∀ passes, SettlesAfter setter substitutions passes →
      passes + 1 ≤ (substitutions.map (·.name)).toFinset.card + 1 ∧
      closure setter substitutions = afterPasses setter substitutions passes) ∧
    ∀ passes listed, listed <+: substitutions →
      let r := listed.foldl Reach.add (afterPasses setter substitutions passes)
      r.dependents.Nodup ∧
        (∀ name ∈ r.dependents, ∃ s ∈ substitutions, s.name = name) ∧
        r.targets = Reference.ofSetter setter :: r.dependents.map Reference.ofSubstitution := by
  refine ⟨?_, ?_, ?_⟩
  · obtain ⟨passes, hpasses⟩ := exists_settlesAfter setter substitutions
    exact ⟨passes, hpasses, fun _ hother => hother.unique hpasses⟩
  · intro passes hpasses
    exact ⟨Nat.succ_le_succ hpasses.le_card, hpasses.closure_eq⟩
  · intro passes listed hlisted r
    have hreached : IsReached setter substitutions r :=
      (isReached_afterPasses passes).foldl fun s hs => hlisted.subset hs
    refine ⟨hreached.nodup, ?_, hreached.targets⟩
    intro name hname
    exact List.mem_map.1 (hreached.subset_names hname)

/-- Two names that use each other, the first of them listed twice: there are as many passes as
there may be. -/
example : (List.range 4).map (fun passes => (afterPasses "tag".toList
    [{ name := "image".toList, references := [Reference.ofSubstitution "command".toList] },
      { name := "command".toList,
        references := [Reference.ofSetter "tag".toList,
          Reference.ofSubstitution "image".toList] },
      { name := "image".toList, references := ["latest".toList] }] passes).dependents) =
    [[], ["command".toList], ["command".toList, "image".toList],
      ["command".toList, "image".toList]] := by
  decide +kernel

end SetterReport.Usage
