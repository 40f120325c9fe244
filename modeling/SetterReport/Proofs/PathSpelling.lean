import SetterReport.Proofs.Resolution

/-!
# Idle steps

Slashes may be repeated in a path, and `.` steps put in, without a change to what the path
means.  Resolution takes no notice of such a step unless nothing but idle steps follows it:
behind a file they are a fault.  So before the last step they can be left out, behind links
too (`walkLinks_movesOf`), and a path that ends in a move leads where its moves lead
(`walkLinks_steps`).

The parent of a path never has an idle step at its end (`endsInMove_spell`).  It is empty for a
bare name and for nothing else (`spell_eq_nil_iff`).

## Main results

* `follow_congr` — two such spellings with the same moves lead to the same place.
* `parent?_of_steps` — the parent of a path, by the steps before the last one.
-/

namespace SetterReport.FileTree

open SetterReport.Path (isIdle moves)

/-! ## Idle steps -/

/-- Idle steps before the last step can be left out, if they can behind links. -/
theorem walkSteps_movesOf {onLink : Trail → List Text → Except Fault Place} {last : Text}
    (hlink : ∀ trail front, onLink trail (front ++ [last]) = onLink trail (movesOf front ++ [last]))
    (followLast : Bool) (trail : Trail) (front : List Text) :
    walkSteps onLink followLast trail (front ++ [last]) =
      walkSteps onLink followLast trail (movesOf front ++ [last]) := by
  induction front generalizing trail with
  | nil => rfl
  | cons step front ih =>
      cases hidle : isIdle step with
      | true =>
          rw [List.cons_append, walkSteps, if_pos hidle, ih trail]
          simp [hidle]
      | false =>
          have hmoves : movesOf (step :: front) = step :: movesOf front := by simp [hidle]
          have hbehind : ∀ target, onLink (start trail target) (Path.steps target ++
              (front ++ [last])) = onLink (start trail target) (Path.steps target ++
              (movesOf front ++ [last])) := by
            intro target
            rw [← List.append_assoc, ← List.append_assoc, hlink, hlink _ (_ ++ movesOf front)]
            simp
          rw [hmoves]
          simp only [List.cons_append, walkSteps, hidle, Bool.false_eq_true, if_false]
          by_cases hup : (step == ['.', '.']) = true
          · rw [if_pos hup, if_pos hup]
            exact ih (outward trail)
          · rw [if_neg hup, if_neg hup]
            by_cases hlong : longestName < step.utf8Length
            · rw [if_pos hlong, if_pos hlong]
            · rw [if_neg hlong, if_neg hlong]
              cases child? step (trail.headD []) with
              | none => rfl
              | some node =>
                  cases node with
                  | file content => simp
                  | directory es => exact ih (es :: trail)
                  | link target => simp [hbehind target]

theorem walkLinks_movesOf (followLast : Bool) (links : Nat) (trail : Trail)
    (front : List Text) (last : Text) :
    walkLinks followLast links trail (front ++ [last]) =
      walkLinks followLast links trail (movesOf front ++ [last]) := by
  induction links generalizing trail front with
  | zero => exact walkSteps_movesOf (fun _ _ => rfl) followLast trail front
  | succ links ih => exact walkSteps_movesOf (fun t f => ih t f) followLast trail front

/-- No idle step stands behind the last move of a spelling. -/
def EndsInMove (t : Text) : Prop :=
  moves t = [] ∨ ∃ front last, Path.steps t = front ++ [last] ∧ isIdle last = false

/-- Where no idle step stands at the end, the moves alone decide. -/
theorem walkLinks_steps {t : Text} (h : EndsInMove t) (followLast : Bool) (links : Nat)
    (trail : Trail) :
    walkLinks followLast links trail (Path.steps t) =
      walkLinks followLast links trail (moves t) := by
  cases h with
  | inl hnone =>
      have hstay : enter trail (movesOf (Path.steps t)) = some trail := by
        show enter trail (moves t) = some trail
        rw [hnone]
        rfl
      have hcut : walkLinks followLast links trail (Path.steps t ++ []) =
          walkLinks followLast links trail [] := walkLinks_append hstay []
      rw [hnone]
      simpa using hcut
  | inr hend =>
      obtain ⟨front, last, hsteps, hidle⟩ := hend
      have hmoves : moves t = movesOf front ++ [last] := by
        unfold moves
        rw [hsteps]
        simp [hidle]
      rw [hsteps, hmoves]
      exact walkLinks_movesOf followLast links trail front last

/-- Two spellings with the same moves lead to the same place, if both can be opened. -/
theorem follow_congr {s t : Text} (hs : IsOpenable s) (ht : IsOpenable t) (hends : EndsInMove s)
    (hendt : EndsInMove t) (hmoves : moves s = moves t) (followLast : Bool) (es : Entries) :
    follow followLast [es] s = follow followLast [es] t := by
  rw [follow_of_isOpenable hs, follow_of_isOpenable ht, start_top, start_top,
    walkLinks_steps hends, walkLinks_steps hendt, hmoves]

end SetterReport.FileTree

namespace SetterReport.Path

open FileTree (EndsInMove movesOf)

/-! ## The parents of a path's spellings -/

/-- The last move of a path, if it is a name, is its file name. -/
theorem fileName?_eq (p : Path) :
    p.fileName? = (moves p.spelling).getLast?.filter (· ≠ ['.', '.']) := by
  have hback : (stepsBack (split p.spelling).2).head? = (moves p.spelling).getLast? := by
    unfold stepsBack moves steps
    rw [List.getLast?_eq_head?_reverse, ← List.filter_reverse, List.head?_filter,
      List.find?_not_eq_head?_dropWhile]
  unfold fileName?
  rw [← hback]
  cases stepsBack (split p.spelling).2 with
  | nil => rfl
  | cons step before =>
      by_cases hup : step = ['.', '.']
      · simp [hup, Option.filter]
      · simp [hup, Option.filter]

/-- The parent of a path that ends in a move is spelled by the steps before it, without the
idle ones at their end. -/
theorem parent?_of_steps {p : Path} {front : List Text} {last : Text}
    (hsteps : steps p.spelling = front ++ [last]) (hidle : isIdle last = false) :
    p.parent? = some ⟨(split p.spelling).1.spell (front.rdropWhile isIdle)⟩ := by
  have hback : stepsBack (split p.spelling).2 = last :: front.reverse := by
    show stepsBack (steps p.spelling) = _
    rw [hsteps]
    simp [stepsBack, hidle]
  unfold parent?
  simp only [hback, stepsBack_eq, List.reverse_reverse]

/-- That parent has no idle step at its end. -/
theorem endsInMove_spell {t : Text} {front : List Text} (h : front <+: steps t) :
    EndsInMove ((split t).1.spell (front.rdropWhile isIdle)) := by
  have hfront : front.rdropWhile isIdle <+: (split t).2 :=
    (List.rdropWhile_prefix isIdle front).trans h
  rcases split_spell t hfront with hsplit | ⟨hnil, hsplit⟩
  · by_cases hnil : front.rdropWhile isIdle = []
    · left
      unfold moves steps
      rw [hsplit, hnil]
      rfl
    · right
      refine ⟨(front.rdropWhile isIdle).dropLast, (front.rdropWhile isIdle).getLast hnil, ?_, ?_⟩
      · unfold steps
        rw [hsplit, List.dropLast_append_getLast hnil]
      · simpa using List.rdropWhile_last_not isIdle front hnil
  · left
    unfold moves steps
    rw [hsplit]
    rfl

/-- Only a bare name has the empty path as its parent. -/
theorem spell_eq_nil_iff {t : Text} {front : List Text} {last : Text} (hlast : IsBare last)
    (hsteps : steps t = front ++ [last]) :
    (split t).1.spell (front.rdropWhile isIdle) = [] ↔ t = last := by
  constructor
  · intro hnil
    have hne : t ≠ [] := by
      intro ht
      rw [ht, show steps [] = [] ++ [[]] from rfl] at hsteps
      exact hlast.ne_nil (List.cons.inj (List.append_inj' hsteps rfl).2).1.symm
    have hbegins : front.rdropWhile isIdle <+: (split t).2 := by
      have hall : front <+: steps t := ⟨[last], hsteps.symm⟩
      exact (List.rdropWhile_prefix isIdle front).trans hall
    -- the empty spelling has no lead and one empty step, and the steps that are left end in a move
    have hlead : (split t).1 = .none := by
      rcases split_spell t hbegins with hsplit | ⟨-, hsplit⟩ <;>
        rw [hnil] at hsplit <;> exact (congrArg Prod.fst hsplit).symm
    have hdropped : front.rdropWhile isIdle = [] := by
      by_contra hleft
      rcases split_spell t hbegins with hsplit | ⟨hdropped, -⟩
      · rw [hnil] at hsplit
        have hlone : front.rdropWhile isIdle = [[]] := (congrArg Prod.snd hsplit).symm
        have hend := List.rdropWhile_last_not isIdle front hleft
        simp [hlone] at hend
      · exact hleft hdropped
    cases front with
    | nil =>
        have hspell := spell_split t
        rw [hlead, show (split t).2 = [last] from hsteps] at hspell
        simpa [Lead.spell, Text.join] using hspell.symm
    | cons step front =>
        have hmove := not_idle_of_lead_none hne hlead hsteps
        have hidle := List.rdropWhile_eq_nil_iff.1 hdropped step (by simp)
        simp [hmove] at hidle
  · intro ht
    have hsplit : split t = (.none, [last]) := by
      rw [ht]
      exact split_of_isBare hlast
    have hfront : front = [] := by
      have hlength := congrArg List.length hsteps
      unfold steps at hlength
      rw [hsplit] at hlength
      simpa using hlength
    rw [hsplit, hfront]
    rfl

end SetterReport.Path
