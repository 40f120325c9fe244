import Mathlib.Data.List.DropRight
import SetterReport.Path

/-!
# Joining names to paths

What a path means is its lead and the steps of it that lead somewhere, its
`moves`.  Joining a bare name adds that name to the moves and changes nothing
else, so the joined path has the name as its file name and the path itself,
without the idle steps at its end, as its parent.

## Main results

* `split_join` — the steps of a joined path, up to one empty step that a closing
  slash leaves behind.
* `components_join`, `fileName?_join`, `exists_parent_join` — what the joined path
  says about the name and the path.
* `spell_split`, `split_spell` — a spelling and its taking apart determine each
  other.
-/

namespace SetterReport.Path

/-! ## Bare names -/

/-- A text that is one component of a path, a name. -/
def IsBare (t : Text) : Prop := component? t = some (.name t) ∧ '/' ∉ t

instance (t : Text) : Decidable (IsBare t) :=
  inferInstanceAs (Decidable (_ ∧ _))

theorem IsBare.not_idle {t : Text} (h : IsBare t) : isIdle t = false := by
  have hc := h.1
  unfold component? at hc
  split at hc
  · simp at hc
  · simpa using ‹¬isIdle t = true›

theorem IsBare.ne_up {t : Text} (h : IsBare t) : t ≠ ['.', '.'] := by
  rintro rfl
  exact absurd h.1 (by decide)

theorem IsBare.ne_nil {t : Text} (h : IsBare t) : t ≠ [] := by
  rintro rfl
  exact absurd h.1 (by decide)

theorem IsBare.not_absolute {t : Text} (h : IsBare t) : isAbsolute t = false := by
  cases t with
  | nil => rfl
  | cons c rest =>
      have hc : c ≠ '/' := fun hc => h.2 (by simp [hc])
      simp [isAbsolute, hc]

/-! ## Taking a spelling apart -/

theorem parts_append_slash (t : Text) {n : Text} (hn : '/' ∉ n) :
    Text.parts '/' (t ++ '/' :: n) = Text.parts '/' t ++ [n] := by
  unfold Text.parts
  rw [List.splitOn_append_cons_self, List.splitOn_eq_singleton hn]

theorem not_mem_of_mem_parts {t part : Text} (h : part ∈ Text.parts '/' t) :
    '/' ∉ part := by
  unfold Text.parts at h
  induction t generalizing part with
  | nil => simp_all
  | cons c t ih =>
      rw [List.splitOn_cons_eq_if_modifyHead] at h
      by_cases hc : c = '/'
      · simp only [hc, beq_self_eq_true, if_true, List.mem_cons] at h
        rcases h with rfl | h
        · simp
        · exact ih h
      · have hbeq : (c == '/') = false := by simpa using hc
        simp only [hbeq, Bool.false_eq_true, if_false] at h
        cases hparts : t.splitOn '/' with
        | nil => simp [hparts] at h
        | cons first rest =>
            rw [hparts] at h ih
            rcases List.mem_cons.1 h with rfl | h
            · have hfirst : '/' ∉ first := ih (by simp)
              simp [hfirst, Ne.symm hc]
            · exact ih (by simp [h])

theorem not_mem_of_mem_split {t step : Text} (h : step ∈ (split t).2) :
    '/' ∉ step := by
  unfold split at h
  split at h
  · exact not_mem_of_mem_parts h
  · simp at h
  · exact not_mem_of_mem_parts h
  · exact not_mem_of_mem_parts h

/-- Putting the lead and the steps together again gives the spelling. -/
theorem spell_split (t : Text) : (split t).1.spell (split t).2 = t := by
  unfold split
  split
  · simp [Lead.spell, Text.join, Text.parts, List.intercalate_splitOn]
  · rfl
  · rename_i rest
    have hne : Text.parts '/' rest ≠ [] := List.splitOn_ne_nil _ _
    cases hparts : Text.parts '/' rest with
    | nil => exact absurd hparts hne
    | cons a as =>
        have hback : Text.join ['/'] (a :: as) = rest := by
          rw [← hparts]
          exact List.intercalate_splitOn _
        simp [Lead.spell, hback]
  · simp [Lead.spell, Text.join, Text.parts, List.intercalate_splitOn]

theorem join_isPrefix {a b : List Text} (h : a <+: b) :
    Text.join ['/'] a <+: Text.join ['/'] b := by
  obtain ⟨c, rfl⟩ := h
  unfold Text.join
  induction a with
  | nil => simp
  | cons x xs ih =>
      cases xs with
      | nil =>
          cases c with
          | nil => simp
          | cons y ys =>
              simp only [List.cons_append, List.nil_append,
                List.intercalate_cons_cons, List.intercalate_singleton]
              exact List.prefix_append_of_prefix (List.prefix_append _ _)
      | cons y ys =>
          simp only [List.cons_append, List.intercalate_cons_cons]
          exact (List.prefix_append_right_inj _).2 ih

/-- A lead with fewer steps is spelled by a prefix. -/
theorem Lead.spell_isPrefix (lead : Lead) {a b : List Text} (h : a <+: b) :
    lead.spell a <+: lead.spell b := by
  have hjoin := join_isPrefix h
  cases lead with
  | root => simpa [Lead.spell] using hjoin
  | here =>
      cases a with
      | nil => cases b <;> simp [Lead.spell]
      | cons x xs =>
          cases b with
          | nil => simp at h
          | cons y ys => simpa [Lead.spell] using hjoin
  | none => simpa [Lead.spell] using hjoin

/-- What a spelling without a lead does not look like. -/
theorem lead_none {t : Text} (h : (split t).1 = .none) :
    (∀ rest, t ≠ '/' :: rest) ∧ t ≠ ['.'] ∧ ∀ rest, t ≠ '.' :: '/' :: rest := by
  unfold split at h
  split at h
  · simp at h
  · simp at h
  · simp at h
  · exact ⟨‹_›, ‹_›, ‹_›⟩

theorem split_of_lead_none {t : Text} (hroot : ∀ rest, t ≠ '/' :: rest)
    (hhere : t ≠ ['.']) (hdot : ∀ rest, t ≠ '.' :: '/' :: rest) :
    split t = (.none, Text.parts '/' t) := by
  unfold split
  split
  · exact absurd rfl (hroot _)
  · exact absurd rfl hhere
  · exact absurd rfl (hdot _)
  · rfl

theorem parts_join {steps : List Text} (hne : steps ≠ [])
    (h : ∀ s ∈ steps, '/' ∉ s) : Text.parts '/' (Text.join ['/'] steps) = steps :=
  List.splitOn_intercalate '/' h hne

/-- The first steps of a spelling, spelled with its lead, are taken apart into
the same lead and steps; only no steps at all may come back as one empty step. -/
theorem split_spell (t : Text) {front : List Text} (h : front <+: (split t).2) :
    split ((split t).1.spell front) = ((split t).1, front) ∨
      (front = [] ∧ split ((split t).1.spell front) = ((split t).1, [[]])) := by
  have hslash : ∀ s ∈ front, '/' ∉ s := fun s hs => not_mem_of_mem_split (h.subset hs)
  by_cases hne : front = []
  · subst hne
    cases hlead : (split t).1 with
    | root => exact Or.inr ⟨rfl, rfl⟩
    | here => exact Or.inl rfl
    | none => exact Or.inr ⟨rfl, rfl⟩
  · left
    have hparts := parts_join hne hslash
    cases hlead : (split t).1 with
    | root => simp [Lead.spell, split, hparts]
    | here =>
        cases front with
        | nil => exact absurd rfl hne
        | cons a as => simp [Lead.spell, split, hparts]
    | none =>
        -- A shorter spelling could look like one with a lead only if the
        -- longer one, of which it is a prefix, does.
        obtain ⟨hroot, hhere, hdot⟩ := lead_none hlead
        have hspell : Text.join ['/'] (split t).2 = t := by
          have := spell_split t
          rwa [hlead] at this
        obtain ⟨more, hmore⟩ : Text.join ['/'] front <+: t := hspell ▸ join_isPrefix h
        show split (Text.join ['/'] front) = (.none, front)
        rw [split_of_lead_none, hparts]
        · intro rest hrest
          exact hroot (rest ++ more) (by rw [← hmore, hrest]; rfl)
        · intro hdotOnly
          have hfront : front = [['.']] := by
            rw [← hparts, hdotOnly]
            rfl
          obtain ⟨later, hlater⟩ := h
          rw [← hlater, hfront] at hspell
          cases later with
          | nil => exact hhere (by rw [← hspell]; rfl)
          | cons b bs => exact hdot (Text.join ['/'] (b :: bs)) (by rw [← hspell]; rfl)
        · intro rest hrest
          exact hdot (rest ++ more) (by rw [← hmore, hrest]; rfl)

/-! ## Moves -/

/-- The steps of a spelling that lead somewhere. -/
def moves (spelling : Text) : List Text :=
  (steps spelling).filter fun s => !isIdle s

/-- The component that a move stands for. -/
def moveComponent (move : Text) : Component :=
  if move == ['.', '.'] then .up else .name move

theorem moveComponent_injective : Function.Injective moveComponent := by
  intro a b h
  unfold moveComponent at h
  split at h <;> split at h
  · simp_all
  · simp at h
  · simp at h
  · simpa using h

theorem component?_of_not_idle {step : Text} (h : isIdle step = false) :
    component? step = some (moveComponent step) := by
  simp only [component?, moveComponent, h, Bool.false_eq_true, if_false]
  split <;> rfl

theorem filterMap_component? (steps : List Text) :
    steps.filterMap component? = (steps.filter fun s => !isIdle s).map moveComponent := by
  induction steps with
  | nil => rfl
  | cons s rest ih =>
      cases hidle : isIdle s with
      | true =>
          have hnone : component? s = none := by simp [component?, hidle]
          simp [hnone, hidle, ih]
      | false =>
          rw [List.filterMap_cons_some (component?_of_not_idle hidle), ih]
          simp [hidle]

theorem components_eq (p : Path) :
    p.components =
      (split p.spelling).1.components ++ (moves p.spelling).map moveComponent := by
  simp only [components, moves, steps, filterMap_component?]

private theorem moveComponent_ne (move : Text) :
    moveComponent move ≠ .root ∧ moveComponent move ≠ .here := by
  unfold moveComponent
  split <;> simp

private theorem mem_lead_append (lead : Lead) (moves : List Text) :
    (.root ∈ lead.components ++ moves.map moveComponent ↔ lead = .root) ∧
      (.here ∈ lead.components ++ moves.map moveComponent ↔ lead = .here) := by
  have hroot : Component.root ∉ moves.map moveComponent := fun h => by
    obtain ⟨m, -, hm⟩ := List.mem_map.1 h
    exact (moveComponent_ne m).1 hm
  have hhere : Component.here ∉ moves.map moveComponent := fun h => by
    obtain ⟨m, -, hm⟩ := List.mem_map.1 h
    exact (moveComponent_ne m).2 hm
  simp only [List.mem_append, hroot, hhere, or_false]
  cases lead <;> simp [Lead.components]

private theorem lead_append_inj {a b : Lead} {xs ys : List Text}
    (h : a.components ++ xs.map moveComponent = b.components ++ ys.map moveComponent) :
    a = b ∧ xs = ys := by
  obtain ⟨haRoot, haHere⟩ := mem_lead_append a xs
  obtain ⟨hbRoot, hbHere⟩ := mem_lead_append b ys
  rw [h] at haRoot haHere
  have hroot := haRoot.symm.trans hbRoot
  have hhere := haHere.symm.trans hbHere
  have hab : a = b := by
    cases a <;> cases b <;> simp_all
  subst hab
  exact ⟨rfl, List.map_injective_iff.2 moveComponent_injective (List.append_cancel_left h)⟩

/-- Two paths are the same exactly when they have the same lead and the same moves. -/
theorem components_eq_iff (p q : Path) :
    p.components = q.components ↔
      (split p.spelling).1 = (split q.spelling).1 ∧ moves p.spelling = moves q.spelling := by
  rw [components_eq, components_eq]
  constructor
  · exact lead_append_inj
  · rintro ⟨hlead, hmoves⟩
    rw [hlead, hmoves]

/-! ## Joining -/

private theorem split_append_slash {t n : Text} (ht : t ≠ []) (hn : '/' ∉ n) :
    split (t ++ '/' :: n) = ((split t).1, (split t).2 ++ [n]) := by
  by_cases hlead : (split t).1 = .none
  · obtain ⟨hroot, hhere, hdot⟩ := lead_none hlead
    rw [split_of_lead_none hroot hhere hdot, split_of_lead_none, parts_append_slash t hn]
    · intro rest hrest
      cases t with
      | nil => exact ht rfl
      | cons c t => exact hroot t (by simp_all)
    · intro hdotOnly
      cases t with
      | nil => exact ht rfl
      | cons c t => simp at hdotOnly
    · intro rest hrest
      match t, ht with
      | [c], _ => exact hhere (by simp_all)
      | c :: d :: t, _ => exact hdot t (by simp_all)
  · unfold split at hlead ⊢
    split at hlead
    · simp [parts_append_slash _ hn]
    · simp [Text.parts, List.splitOn_eq_singleton hn]
    · simp [parts_append_slash _ hn]
    · simp at hlead

theorem split_of_isBare {n : Text} (hn : IsBare n) : split n = (.none, [n]) := by
  have hparts : Text.parts '/' n = [n] := List.splitOn_eq_singleton hn.2
  rw [split_of_lead_none, hparts]
  · rintro rest rfl
    exact hn.2 (by simp)
  · rintro rfl
    exact absurd hn.not_idle (by decide)
  · rintro rest rfl
    exact hn.2 (by simp)

/-- Joining a bare name adds it as the last step; an empty last step, left
behind by a closing slash, gives way to it. -/
theorem split_join (p : Path) {n : Text} (hn : IsBare n) :
    ∃ front, split (p.join n).spelling = ((split p.spelling).1, front ++ [n]) ∧
      ((split p.spelling).2 = front ∨ (split p.spelling).2 = front ++ [[]]) := by
  unfold join
  rw [hn.not_absolute]
  simp only [Bool.false_eq_true, if_false, Bool.or_eq_true, List.isEmpty_iff,
    beq_iff_eq]
  by_cases hempty : p.spelling = []
  · refine ⟨[], ?_, Or.inr ?_⟩
    · rw [if_pos (Or.inl hempty), hempty]
      exact split_of_isBare hn
    · rw [hempty]
      rfl
  · by_cases hslash : p.spelling.getLast? = some '/'
    · rw [if_pos (Or.inr hslash)]
      obtain ⟨before, hbefore⟩ := List.getLast?_eq_some_iff.1 hslash
      have hjoined : p.spelling ++ n = before ++ '/' :: n := by simp [hbefore]
      by_cases hroot : before = []
      · refine ⟨[], ?_, Or.inr ?_⟩
        · have hparts : Text.parts '/' n = [n] := List.splitOn_eq_singleton hn.2
          simp [hbefore, hroot, split, hparts]
        · rw [hbefore, hroot]
          rfl
      · have hopen := split_append_slash (n := []) hroot (by simp)
        refine ⟨(split before).2, ?_, Or.inr ?_⟩
        · rw [hjoined, split_append_slash hroot hn.2, hbefore, hopen]
        · rw [hbefore, hopen]
    · rw [if_neg (by simp [hempty, hslash])]
      exact ⟨_, split_append_slash hempty hn.2, Or.inl rfl⟩

@[simp] theorem lead_join (p : Path) {n : Text} (hn : IsBare n) :
    (split (p.join n).spelling).1 = (split p.spelling).1 := by
  obtain ⟨front, hsplit, -⟩ := split_join p hn
  rw [hsplit]

@[simp] theorem isIdle_nil : isIdle [] = true := rfl

theorem moves_join (p : Path) {n : Text} (hn : IsBare n) :
    moves (p.join n).spelling = moves p.spelling ++ [n] := by
  obtain ⟨front, hsplit, hfront⟩ := split_join p hn
  unfold moves steps
  rw [hsplit]
  rcases hfront with hfront | hfront <;>
    simp [hfront, hn.not_idle]

theorem moveComponent_of_isBare {n : Text} (hn : IsBare n) : moveComponent n = .name n := by
  have hc := component?_of_not_idle hn.not_idle
  rw [hn.1] at hc
  exact (Option.some.inj hc).symm

theorem components_join (p : Path) {n : Text} (hn : IsBare n) :
    (p.join n).components = p.components ++ [.name n] := by
  rw [components_eq, components_eq, lead_join p hn, moves_join p hn]
  simp [moveComponent_of_isBare hn]

theorem fileName?_join (p : Path) {n : Text} (hn : IsBare n) :
    (p.join n).fileName? = some n := by
  obtain ⟨front, hsplit, -⟩ := split_join p hn
  unfold fileName? stepsBack
  rw [hsplit]
  simp [hn.not_idle, hn.ne_up]

/-- The last name of a path is a bare one. -/
theorem isBare_of_fileName? {p : Path} {n : Text} (h : p.fileName? = some n) : IsBare n := by
  unfold fileName? at h
  split at h
  · simp at h
  · rename_i step before hback
    split at h
    · simp at h
    · rename_i hup
      obtain rfl := Option.some.inj h
      have hidle : isIdle step = false := by
        have hhead := List.head?_dropWhile_not isIdle (split p.spelling).2.reverse
        unfold stepsBack at hback
        rw [hback] at hhead
        simpa using hhead
      have hmem : step ∈ (split p.spelling).2 := by
        have hsuffix :=
          (List.dropWhile_suffix isIdle (l := (split p.spelling).2.reverse)).subset
        unfold stepsBack at hback
        rw [hback] at hsuffix
        simpa using hsuffix (List.mem_cons_self ..)
      refine ⟨?_, not_mem_of_mem_split hmem⟩
      rw [component?_of_not_idle hidle]
      unfold moveComponent
      rw [if_neg hup]

/-! ## Parents -/

theorem stepsBack_eq (steps : List Text) :
    stepsBack steps = (steps.rdropWhile isIdle).reverse := by
  simp [stepsBack, List.rdropWhile]

private theorem filter_rdropWhile_isIdle (steps : List Text) :
    (steps.rdropWhile isIdle).filter (fun s => !isIdle s) =
      steps.filter fun s => !isIdle s := by
  have hidle : (steps.rtakeWhile isIdle).filter (fun s => !isIdle s) = [] := by
    rw [List.filter_eq_nil_iff]
    intro s hs
    simp [List.mem_rtakeWhile_imp hs]
  conv_rhs => rw [← List.rdropWhile_append_rtakeWhile (l := steps) (p := isIdle)]
  rw [List.filter_append, hidle, List.append_nil]

private theorem moves_spell (t : Text) {front : List Text} (h : front <+: (split t).2) :
    (split ((split t).1.spell front)).1 = (split t).1 ∧
      moves ((split t).1.spell front) = front.filter fun s => !isIdle s := by
  unfold moves steps
  rcases split_spell t h with hsplit | ⟨rfl, hsplit⟩
  · simp [hsplit]
  · simp [hsplit]

/-- A path with a file name has a parent, which is spelled by a prefix of the
path and means the path without that name. -/
theorem exists_parent {p : Path} {n : Text} (h : p.fileName? = some n) :
    ∃ d : Path, p.parent? = some d ∧ d.spelling <+: p.spelling ∧
      (split d.spelling).1 = (split p.spelling).1 ∧
      moves p.spelling = moves d.spelling ++ [n] := by
  unfold fileName? at h
  cases hback : stepsBack (split p.spelling).2 with
  | nil => simp [hback] at h
  | cons last before =>
      have hlast : last = n := by
        simp only [hback] at h
        split at h
        · simp at h
        · exact Option.some.inj h
      subst hlast
      have hsteps : (split p.spelling).2.rdropWhile isIdle = before.reverse ++ [last] := by
        rw [stepsBack_eq] at hback
        rw [← List.reverse_reverse (List.rdropWhile _ _), hback]
        simp
      have hidle : isIdle last = false := by
        have hne : (split p.spelling).2.rdropWhile isIdle ≠ [] := by simp [hsteps]
        have hend := List.rdropWhile_last_not isIdle _ hne
        simpa [hsteps] using hend
      have hfront : before.reverse.rdropWhile isIdle <+: (split p.spelling).2 := by
        have hall : before.reverse ++ [last] <+: (split p.spelling).2 :=
          hsteps ▸ List.rdropWhile_prefix _ _
        have hbefore : before.reverse.rdropWhile isIdle <+: before.reverse :=
          List.rdropWhile_prefix _ _
        exact (hbefore.trans (List.prefix_append _ _)).trans hall
      obtain ⟨hlead, hmoves⟩ := moves_spell p.spelling hfront
      refine ⟨⟨(split p.spelling).1.spell (before.reverse.rdropWhile isIdle)⟩,
        ?_, ?_, hlead, ?_⟩
      · unfold parent?
        simp [hback, stepsBack_eq]
      · have hbegins := Lead.spell_isPrefix (split p.spelling).1 hfront
        rwa [spell_split] at hbegins
      · rw [hmoves, filter_rdropWhile_isIdle]
        unfold moves steps
        rw [← filter_rdropWhile_isIdle, hsteps]
        simp [hidle]

/-- The parent of a path with a bare name joined to it is the path itself. -/
theorem exists_parent_join (p : Path) {n : Text} (hn : IsBare n) :
    ∃ d : Path, (p.join n).parent? = some d ∧ d.spelling <+: (p.join n).spelling ∧
      d.components = p.components := by
  obtain ⟨d, hd, hbegins, hlead, hmoves⟩ := exists_parent (fileName?_join p hn)
  rw [moves_join p hn] at hmoves
  rw [lead_join p hn] at hlead
  exact ⟨d, hd, hbegins,
    (components_eq_iff _ _).2 ⟨hlead, (List.append_cancel_right hmoves).symm⟩⟩

/-- A path without its last name has one component less. -/
theorem length_components_of_parent? {p d : Path} {name : Text}
    (hname : p.fileName? = some name) (hd : p.parent? = some d) :
    d.components.length < p.components.length := by
  obtain ⟨_, hparent, -, hlead, hmoves⟩ := exists_parent hname
  obtain rfl := Option.some.inj (hd.symm.trans hparent)
  rw [components_eq, components_eq, hlead, hmoves]
  simp

/-- A spelling without a lead does not begin with an idle step, unless it is empty. -/
theorem not_idle_of_lead_none {t : Text} (ht : t ≠ []) (hlead : (split t).1 = .none)
    {first : Text} {others : List Text} (hsteps : steps t = first :: others) :
    isIdle first = false := by
  obtain ⟨hroot, hhere, hdot⟩ := lead_none hlead
  have hjoin : Text.join ['/'] (first :: others) = t := by
    have hspell := spell_split t
    rw [hlead, show (split t).2 = first :: others from hsteps] at hspell
    exact hspell
  rw [Bool.eq_false_iff]
  intro hidle
  have hcases : first = [] ∨ first = ['.'] := by
    simpa [isIdle, List.isEmpty_iff] using hidle
  rcases hcases with rfl | rfl
  · cases others with
    | nil => exact ht hjoin.symm
    | cons second others => exact hroot _ hjoin.symm
  · cases others with
    | nil => exact hhere hjoin.symm
    | cons second others => exact hdot _ hjoin.symm

private theorem components_ne_nil {p : Path} (h : p.spelling ≠ []) : p.components ≠ [] := by
  rw [components_eq]
  cases hlead : (split p.spelling).1 with
  | root => simp [Lead.components]
  | here => simp [Lead.components]
  | none =>
      obtain ⟨hroot, hhere, hdot⟩ := lead_none hlead
      have hne : steps p.spelling ≠ [] := by
        unfold steps
        rw [split_of_lead_none hroot hhere hdot]
        exact List.splitOn_ne_nil _ _
      unfold moves
      cases hsteps : steps p.spelling with
      | nil => exact absurd hsteps hne
      | cons first others =>
          simp [Lead.components, not_idle_of_lead_none h hlead hsteps]

/-- Only the empty path has no components. -/
theorem components_eq_nil_iff {p : Path} : p.components = [] ↔ p.spelling = [] := by
  constructor
  · intro hnone
    by_contra h
    exact components_ne_nil h hnone
  · intro hempty
    rw [show p = ⟨[]⟩ from congrArg Path.mk hempty]
    rfl

/-! ## Joining several names -/

/-- Goes on from a path through several names. -/
def joinAll (p : Path) (names : List Text) : Path :=
  names.foldl join p

@[simp] theorem joinAll_nil (p : Path) : p.joinAll [] = p := rfl

@[simp] theorem joinAll_cons (p : Path) (n : Text) (names : List Text) :
    p.joinAll (n :: names) = (p.join n).joinAll names := rfl

theorem joinAll_concat (p : Path) (names : List Text) (n : Text) :
    p.joinAll (names ++ [n]) = (p.joinAll names).join n := by
  simp [joinAll]

theorem moves_joinAll (p : Path) {names : List Text} (h : ∀ n ∈ names, IsBare n) :
    moves (p.joinAll names).spelling = moves p.spelling ++ names := by
  induction names generalizing p with
  | nil => simp
  | cons n names ih =>
      rw [joinAll_cons, ih _ fun m hm => h m (by simp [hm]), moves_join p (h n (by simp))]
      simp

theorem components_joinAll (p : Path) {names : List Text} (h : ∀ n ∈ names, IsBare n) :
    (p.joinAll names).components = p.components ++ names.map Component.name := by
  induction names generalizing p with
  | nil => simp
  | cons n names ih =>
      rw [joinAll_cons, ih (p.join n) fun m hm => h m (by simp [hm]),
        components_join p (h n (by simp))]
      simp

/-- Different names lead to different paths. -/
theorem joinAll_components_inj (p : Path) {a b : List Text} (ha : ∀ n ∈ a, IsBare n)
    (hb : ∀ n ∈ b, IsBare n) (h : (p.joinAll a).components = (p.joinAll b).components) :
    a = b := by
  have hmoves := ((components_eq_iff _ _).1 h).2
  rw [moves_joinAll p ha, moves_joinAll p hb] at hmoves
  exact List.append_cancel_left hmoves

/-! ## Characters of a joined path -/

theorem mem_join {p : Path} {n : Text} {c : Char} (hc : c ∈ (p.join n).spelling) :
    c ∈ p.spelling ∨ c = '/' ∨ c ∈ n := by
  unfold join at hc
  split at hc
  · exact Or.inr (Or.inr hc)
  · split at hc
    · simp only [List.mem_append] at hc
      exact hc.imp_right Or.inr
    · simpa using hc

theorem mem_joinAll {p : Path} {names : List Text} {c : Char}
    (hc : c ∈ (p.joinAll names).spelling) :
    c ∈ p.spelling ∨ c = '/' ∨ ∃ n ∈ names, c ∈ n := by
  induction names generalizing p with
  | nil => exact Or.inl hc
  | cons n names ih =>
      rcases ih hc with h | h | ⟨m, hm, h⟩
      · rcases mem_join h with h | h | h
        · exact Or.inl h
        · exact Or.inr (Or.inl h)
        · exact Or.inr (Or.inr ⟨n, by simp, h⟩)
      · exact Or.inr (Or.inl h)
      · exact Or.inr (Or.inr ⟨m, by simp [hm], h⟩)

end SetterReport.Path
