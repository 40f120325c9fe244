import Mathlib.Data.List.Lex
import Mathlib.Order.Lattice
import SetterReport.Path

/-!
# Sorted lists of paths

`Text.sortBy` is insertion sort, so it permutes its list; when the order is
total and transitive, its result ascends.  `Path.sorted` drops from the
ascending list every path that is the same as the one before it.  What is left
ascends strictly, and stands for the same set of paths.
-/

namespace SetterReport

namespace Text

variable {α β : Type}

theorem insertBy_perm (le : α → α → Bool) (x : α) (xs : List α) :
    (insertBy le x xs).Perm (x :: xs) := by
  induction xs with
  | nil => exact List.Perm.refl _
  | cons y rest ih =>
      unfold insertBy
      split
      · exact List.Perm.refl _
      · exact (ih.cons y).trans (List.Perm.swap x y rest)

theorem sortBy_perm (le : α → α → Bool) (xs : List α) : (sortBy le xs).Perm xs := by
  induction xs with
  | nil => exact List.Perm.refl _
  | cons x rest ih => exact (insertBy_perm le x _).trans (ih.cons x)

theorem insertBy_map (f : α → β) {le : α → α → Bool} {le' : β → β → Bool}
    (h : ∀ a b, le' (f a) (f b) = le a b) (x : α) (xs : List α) :
    insertBy le' (f x) (xs.map f) = (insertBy le x xs).map f := by
  induction xs with
  | nil => rfl
  | cons y rest ih =>
      simp only [List.map_cons, insertBy, h]
      split
      · rfl
      · rw [ih]
        rfl

/-- Sorting commutes with a map that keeps the order. -/
theorem sortBy_map (f : α → β) {le : α → α → Bool} {le' : β → β → Bool}
    (h : ∀ a b, le' (f a) (f b) = le a b) (xs : List α) :
    sortBy le' (xs.map f) = (sortBy le xs).map f := by
  induction xs with
  | nil => rfl
  | cons x rest ih =>
      show insertBy le' (f x) (sortBy le' (rest.map f)) = _
      rw [ih, insertBy_map f h]
      rfl

theorem insertBy_pairwise {le : α → α → Bool} (htotal : ∀ a b, le a b = false → le b a = true)
    (htrans : ∀ a b c, le a b = true → le b c = true → le a c = true) {x : α} {xs : List α}
    (h : xs.Pairwise fun a b => le a b = true) :
    (insertBy le x xs).Pairwise fun a b => le a b = true := by
  induction xs with
  | nil => simp [insertBy]
  | cons y rest ih =>
      obtain ⟨hy, hrest⟩ := List.pairwise_cons.1 h
      unfold insertBy
      split
      · rename_i hxy
        refine List.pairwise_cons.2 ⟨?_, h⟩
        intro z hz
        rcases List.mem_cons.1 hz with rfl | hz
        · exact hxy
        · exact htrans x y z hxy (hy z hz)
      · rename_i hxy
        refine List.pairwise_cons.2 ⟨?_, ih hrest⟩
        intro z hz
        rcases List.mem_cons.1 ((insertBy_perm le x rest).mem_iff.1 hz) with rfl | hz
        · exact htotal _ _ (by simpa using hxy)
        · exact hy z hz

theorem sortBy_pairwise {le : α → α → Bool} (htotal : ∀ a b, le a b = false → le b a = true)
    (htrans : ∀ a b c, le a b = true → le b c = true → le a c = true) (xs : List α) :
    (sortBy le xs).Pairwise fun a b => le a b = true := by
  induction xs with
  | nil => exact List.Pairwise.nil
  | cons x rest ih => exact insertBy_pairwise htotal htrans ih

/-- Sorting by keys of a linear order makes the keys ascend. -/
theorem sortBy_pairwise_key {κ : Type} [LinearOrder κ] {key : α → κ} {le : α → α → Bool}
    (h : ∀ a b, le a b = true ↔ key a ≤ key b) (xs : List α) :
    (sortBy le xs).Pairwise fun a b => key a ≤ key b := by
  have hsorted : (sortBy le xs).Pairwise fun a b => le a b = true := by
    apply sortBy_pairwise
    · intro a b hnot
      have hle : ¬key a ≤ key b := fun hle => by simp [(h a b).2 hle] at hnot
      exact (h b a).2 (le_of_not_ge hle)
    · intro a b c hab hbc
      exact (h a c).2 (le_trans ((h a b).1 hab) ((h b c).1 hbc))
  exact hsorted.imp (h _ _).1

/-- Sorting leaves an ascending list as it is. -/
theorem sortBy_of_pairwise {le : α → α → Bool} {xs : List α}
    (h : xs.Pairwise fun a b => le a b = true) : sortBy le xs = xs := by
  induction xs with
  | nil => rfl
  | cons x rest ih =>
      obtain ⟨hx, hrest⟩ := List.pairwise_cons.1 h
      show insertBy le x (sortBy le rest) = x :: rest
      rw [ih hrest]
      cases rest with
      | nil => rfl
      | cons y rest => rw [insertBy, if_pos (hx y (by simp))]

end Text

namespace Path

/-! ## Keys -/

theorem Component.key_injective : Function.Injective Component.key := by
  intro a b h
  cases a <;> cases b <;> simp only [Component.key] at h <;> try simp_all
  rename_i s t
  exact List.map_injective_iff.2 (fun c d hcd => Char.ext (UInt32.toNat_inj.1 hcd)) h

theorem key_eq_iff (p q : Path) : p.key = q.key ↔ p.components = q.components :=
  (List.map_injective_iff.2 Component.key_injective).eq_iff

theorem le_iff (p q : Path) : le p q = true ↔ p.key ≤ q.key := by
  simp only [le, Bool.not_eq_true', decide_eq_false_iff_not]
  exact not_lt

/-! ## Ascending lists without repeats -/

theorem mem_of_mem_dropRepeats {ps : List Path} {p : Path} (h : p ∈ dropRepeats ps) :
    p ∈ ps := by
  induction ps with
  | nil => simp [dropRepeats] at h
  | cons q rest ih =>
      unfold dropRepeats at h
      split at h
      · simp_all
      · rename_i r kept hkept
        split at h
        · rcases List.mem_cons.1 h with rfl | h
          · simp
          · exact List.mem_cons_of_mem _ (ih (by rw [hkept]; simp [h]))
        · rcases List.mem_cons.1 h with rfl | h
          · simp
          · exact List.mem_cons_of_mem _ (ih (by rw [hkept]; exact h))

/-- Of every path one that is the same is kept. -/
theorem exists_mem_dropRepeats {ps : List Path} {p : Path} (h : p ∈ ps) :
    ∃ q ∈ dropRepeats ps, q.components = p.components := by
  induction ps with
  | nil => simp at h
  | cons first rest ih =>
      unfold dropRepeats
      split
      · rename_i hnil
        rcases List.mem_cons.1 h with rfl | h
        · exact ⟨p, by simp, rfl⟩
        · obtain ⟨q, hq, -⟩ := ih h
          simp [hnil] at hq
      · rename_i r kept hkept
        rw [hkept] at ih
        split
        · rename_i hsame
          rcases List.mem_cons.1 h with rfl | h
          · exact ⟨p, by simp, rfl⟩
          · obtain ⟨q, hq, hqp⟩ := ih h
            rcases List.mem_cons.1 hq with rfl | hq
            · exact ⟨first, by simp, hsame.trans hqp⟩
            · exact ⟨q, by simp [hq], hqp⟩
        · rcases List.mem_cons.1 h with rfl | h
          · exact ⟨p, by simp, rfl⟩
          · obtain ⟨q, hq, hqp⟩ := ih h
            exact ⟨q, List.mem_cons_of_mem _ hq, hqp⟩

/-- Without its repeats an ascending list ascends strictly. -/
theorem dropRepeats_pairwise {ps : List Path} (h : ps.Pairwise fun p q => p.key ≤ q.key) :
    (dropRepeats ps).Pairwise fun p q => p.key < q.key := by
  induction ps with
  | nil => exact List.Pairwise.nil
  | cons p rest ih =>
      obtain ⟨hp, hrest⟩ := List.pairwise_cons.1 h
      unfold dropRepeats
      split
      · simp
      · rename_i q kept hkept
        have hstrict := ih hrest
        rw [hkept] at hstrict
        obtain ⟨hq, hkeptStrict⟩ := List.pairwise_cons.1 hstrict
        have hpq : p.key ≤ q.key := hp q (mem_of_mem_dropRepeats (by rw [hkept]; simp))
        split
        · rename_i hsame
          refine List.pairwise_cons.2 ⟨?_, hkeptStrict⟩
          intro r hr
          rw [(key_eq_iff p q).2 hsame]
          exact hq r hr
        · rename_i hother
          have hlt : p.key < q.key :=
            lt_of_le_of_ne hpq fun hkey => hother ((key_eq_iff p q).1 hkey)
          refine List.pairwise_cons.2 ⟨?_, hstrict⟩
          intro r hr
          rcases List.mem_cons.1 hr with rfl | hr
          · exact hlt
          · exact hlt.trans (hq r hr)

/-- A list that ascends strictly has no repeats to drop. -/
theorem dropRepeats_of_pairwise {ps : List Path} (h : ps.Pairwise fun p q => p.key < q.key) :
    dropRepeats ps = ps := by
  induction ps with
  | nil => rfl
  | cons p rest ih =>
      obtain ⟨hp, hrest⟩ := List.pairwise_cons.1 h
      rw [dropRepeats, ih hrest]
      cases rest with
      | nil => rfl
      | cons q rest =>
          have hother : p.components ≠ q.components := fun hsame =>
            (hp q (by simp)).ne ((key_eq_iff p q).2 hsame)
          exact if_neg hother

theorem sorted_pairwise (ps : List Path) : (sorted ps).Pairwise fun p q => p.key < q.key :=
  dropRepeats_pairwise (Text.sortBy_pairwise_key le_iff ps)

theorem sorted_of_pairwise {ps : List Path} (h : ps.Pairwise fun p q => p.key < q.key) :
    sorted ps = ps := by
  have hle : ps.Pairwise fun p q => le p q = true := h.imp fun hlt => (le_iff _ _).2 hlt.le
  unfold sorted
  rw [Text.sortBy_of_pairwise hle, dropRepeats_of_pairwise h]

theorem mem_of_mem_sorted {ps : List Path} {p : Path} (h : p ∈ sorted ps) : p ∈ ps :=
  (Text.sortBy_perm le ps).mem_iff.1 (mem_of_mem_dropRepeats h)

theorem exists_mem_sorted {ps : List Path} {p : Path} (h : p ∈ ps) :
    ∃ q ∈ sorted ps, q.components = p.components :=
  exists_mem_dropRepeats ((Text.sortBy_perm le ps).mem_iff.2 h)

/-- No two paths of a sorted list are the same. -/
theorem sorted_components_nodup (ps : List Path) : ((sorted ps).map components).Nodup := by
  rw [List.Nodup, List.pairwise_map]
  refine (sorted_pairwise ps).imp ?_
  intro p q hlt hsame
  rw [(key_eq_iff p q).2 hsame] at hlt
  exact lt_irrefl _ hlt

end Path

end SetterReport
