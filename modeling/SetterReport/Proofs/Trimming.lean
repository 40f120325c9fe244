import Mathlib.Data.List.DropRight
import Mathlib.Data.List.TakeWhile
import SetterReport.Text.Basic

/-!
# Trimming

Trimming takes away the blanks at both ends of a text and nothing else.  What is left has no
blank at either end, so that it stays as it is when it is trimmed once more (`trim_trim`), and
it is found again between any blanks (`trim_append`).
-/

namespace SetterReport.Text

/-- Only blanks are trimmed away. -/
theorem exists_trim (t : Text) :
    ∃ a b, t = a ++ (trim t ++ b) ∧ (∀ x ∈ a, isBlank x = true) ∧ ∀ x ∈ b, isBlank x = true := by
  have hstart : t.takeWhile isBlank ++ trimStart t = t := List.takeWhile_append_dropWhile
  have hend : trim t ++ (trimStart t).rtakeWhile isBlank = trimStart t :=
    List.rdropWhile_append_rtakeWhile
  refine ⟨t.takeWhile isBlank, (trimStart t).rtakeWhile isBlank, ?_, ?_, ?_⟩
  · rw [hend, hstart]
  · exact fun x => List.mem_takeWhile_imp
  · intro x hx
    have hmem : x ∈ (trimStart t).reverse.takeWhile isBlank := by
      simpa [List.rtakeWhile] using hx
    exact List.mem_takeWhile_imp hmem

/-- A trimmed text starts with no blank. -/
theorem isBlank_of_trim_eq_cons {t rest : Text} {c : Char} (h : trim t = c :: rest) :
    isBlank c = false := by
  have hprefix : trim t <+: trimStart t := List.rdropWhile_prefix isBlank (trimStart t)
  rw [h] at hprefix
  obtain ⟨b, hb⟩ := hprefix
  have hhead : (t.dropWhile isBlank).head? = some c := by
    rw [show t.dropWhile isBlank = trimStart t from rfl, ← hb]
    rfl
  have hnot := List.head?_dropWhile_not isBlank t
  rw [hhead] at hnot
  simpa using hnot

/-- Trimming a text again changes nothing. -/
theorem trim_trim (t : Text) : trim (trim t) = trim t := by
  have hstart : trimStart (trim t) = trim t := by
    cases htrim : trim t with
    | nil => rfl
    | cons c rest =>
        exact List.dropWhile_cons_of_neg (by simp [isBlank_of_trim_eq_cons htrim])
  have hend : trimEnd (trim t) = trim t := List.rdropWhile_idempotent isBlank (trimStart t)
  show trimEnd (trimStart (trim t)) = trim t
  rw [hstart, hend]

/-- Blanks around a text that has none at its ends are what is trimmed away. -/
theorem trim_append {a b middle : Text} {first last : Char} (ha : ∀ x ∈ a, isBlank x = true)
    (hb : ∀ x ∈ b, isBlank x = true) (hfirst : isBlank first = false)
    (hlast : isBlank last = false) :
    trim (a ++ (first :: (middle ++ [last]) ++ b)) = first :: (middle ++ [last]) := by
  have hstart : trimStart (a ++ (first :: (middle ++ [last]) ++ b)) =
      first :: (middle ++ [last]) ++ b := by
    unfold trimStart
    rw [List.dropWhile_append_of_pos ha, List.cons_append,
      List.dropWhile_cons_of_neg (by simp [hfirst])]
  unfold trim trimEnd
  rw [hstart, List.reverse_append, List.dropWhile_append_of_pos (by simpa using hb),
    ← List.cons_append, List.reverse_append, List.reverse_singleton, List.singleton_append,
    List.dropWhile_cons_of_neg (by simp [hlast])]
  simp

end SetterReport.Text
