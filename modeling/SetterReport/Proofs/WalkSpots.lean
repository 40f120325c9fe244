import Mathlib.Data.Char
import SetterReport.FileTree.Walk
import SetterReport.Proofs.PathOrder
import SetterReport.Proofs.Resolution

/-!
# What a walk meets

A *spot* is a visited thing told by the names that lead to it from where the
walk started, rather than by its path.  A walk is the list of its spots, spelled
from the root (`visitsAt_eq`), and its spots are exactly the nodes that a descent
reaches without entering a closed directory (`mem_spotsAt`).  They ascend in the
lexicographic order of their names (`spotsAt_ascend`), so each is met once
(`nodup_spotsAt`).
-/

namespace SetterReport.FileTree

/-! ## Lists in the order of their names -/

theorem nameLe_iff {α : Type} (a b : Text × α) : nameLe a b = true ↔ a.1 ≤ b.1 := by
  simp only [nameLe, Bool.not_eq_true', decide_eq_false_iff_not]
  exact not_lt

theorem sortBy_nameLe_pairwise {α : Type} (xs : List (Text × α)) :
    (Text.sortBy nameLe xs).Pairwise fun a b => a.1 ≤ b.1 :=
  Text.sortBy_pairwise_key nameLe_iff xs

/-- Distinct names ascend strictly in their order. -/
theorem sortBy_nameLe_strict {α : Type} {xs : List (Text × α)}
    (hdistinct : (xs.map (·.1)).Nodup) :
    (Text.sortBy nameLe xs).Pairwise fun a b => a.1 < b.1 := by
  have hnames : ((Text.sortBy nameLe xs).map (·.1)).Nodup :=
    ((Text.sortBy_perm nameLe xs).map _).nodup_iff.2 hdistinct
  refine ((sortBy_nameLe_pairwise xs).and (List.pairwise_map.1 hnames)).imp ?_
  rintro a b ⟨hle, hne⟩
  exact lt_of_le_of_ne hle hne

theorem inNameOrder_perm {α : Type} (lists : List (Text × List α)) :
    (inNameOrder lists).Perm (lists.flatMap (·.2)) :=
  (Text.sortBy_perm nameLe lists).flatMap_right _

theorem mem_inNameOrder {α : Type} {lists : List (Text × List α)} {x : α} :
    x ∈ inNameOrder lists ↔ ∃ named ∈ lists, x ∈ named.2 := by
  rw [(inNameOrder_perm lists).mem_iff, List.mem_flatMap]

theorem inNameOrder_map {α β : Type} (f : α → β) (lists : List (Text × List α)) :
    inNameOrder (lists.map fun named => (named.1, named.2.map f)) =
      (inNameOrder lists).map f := by
  have hkeep : ∀ a b : Text × List α,
      nameLe (a.1, a.2.map f) (b.1, b.2.map f) = nameLe a b := fun _ _ => rfl
  unfold inNameOrder
  rw [Text.sortBy_map _ hkeep, List.flatMap_map, List.map_flatMap]

/-- What holds within each of some named lists, and of members of two lists whose names ascend,
holds along all of them in the order of their names. -/
theorem inNameOrder_pairwise {α : Type} {R : α → α → Prop} {lists : List (Text × List α)}
    (hdistinct : (lists.map (·.1)).Nodup) (hinside : ∀ named ∈ lists, named.2.Pairwise R)
    (hacross : ∀ a ∈ lists, ∀ b ∈ lists, a.1 < b.1 → ∀ x ∈ a.2, ∀ y ∈ b.2, R x y) :
    (inNameOrder lists).Pairwise R := by
  have hmem : ∀ {named}, named ∈ Text.sortBy nameLe lists → named ∈ lists :=
    (Text.sortBy_perm nameLe lists).mem_iff.1
  unfold inNameOrder
  rw [List.pairwise_flatMap]
  constructor
  · intro named hnamed
    exact hinside named (hmem hnamed)
  · refine (sortBy_nameLe_strict hdistinct).imp_of_mem ?_
    intro a b ha hb hab
    exact hacross a (hmem ha) b (hmem hb) hab

/-! ## Spots -/

/-- A node at or below the start of a walk. -/
structure Spot where
  /-- The names that lead to it from the start. -/
  names : List Text
  node : FileTree
  /-- The directories around it, from the innermost outward. -/
  around : Trail

namespace Spot

/-- The spot as it is met on a walk from a path. -/
def visit (root : Path) (s : Spot) : Visit :=
  ⟨root.joinAll s.names, s.node, s.around⟩

/-- The spot as seen from one directory further out. -/
def under (name : Text) (s : Spot) : Spot :=
  ⟨name :: s.names, s.node, s.around⟩

end Spot

mutual

/-- The spots of a walk that starts at a node. -/
def spotsAt (closed : Trail → Bool) (around : Trail) : FileTree → List Spot
  | directory entries =>
    ⟨[], directory entries, around⟩ :: inNameOrder (spotsIn closed (entries :: around) entries)
  | file content => [⟨[], file content, around⟩]
  | link target => [⟨[], link target, around⟩]
termination_by structural tree => tree

/-- The spots at and below some entries. -/
def spotsIn (closed : Trail → Bool) (around : Trail) :
    List (Text × FileTree) → List (Text × List Spot)
  | [] => []
  | (name, node) :: rest =>
    (name, if node.isDirectory && closed (node.entries :: around) then []
      else (spotsAt closed around node).map (Spot.under name)) :: spotsIn closed around rest
termination_by structural entries => entries

end

/-- The spots at and below one entry. -/
def spotsOf (closed : Trail → Bool) (around : Trail) (e : Text × FileTree) : List Spot :=
  if e.2.isDirectory && closed (e.2.entries :: around) then []
  else (spotsAt closed around e.2).map (Spot.under e.1)

theorem spotsIn_eq (closed : Trail → Bool) (around : Trail) (es : Entries) :
    spotsIn closed around es = es.map fun e => (e.1, spotsOf closed around e) := by
  induction es with
  | nil => rfl
  | cons e rest ih => rw [spotsIn, ih]; rfl

theorem visitsIn_eq (closed : Trail → Bool) (root : Path) (around : Trail) (es : Entries) :
    visitsIn closed root around es = es.map fun e =>
      (e.1, if e.2.isDirectory && closed (e.2.entries :: around) then []
        else visitsAt closed (root.join e.1) around e.2) := by
  induction es with
  | nil => rfl
  | cons e rest ih => rw [visitsIn, ih]; rfl

/-- A walk is the list of its spots, spelled from the root. -/
theorem visitsAt_eq (closed : Trail → Bool) (root : Path) (around : Trail) (t : FileTree) :
    visitsAt closed root around t = (spotsAt closed around t).map (Spot.visit root) := by
  induction t using byEntries generalizing root around with
  | file content => rfl
  | link target => rfl
  | directory es ih =>
      rw [visitsAt, spotsAt, List.map_cons, visitsIn_eq, spotsIn_eq, ← inNameOrder_map,
        List.map_map]
      refine congrArg _ (congrArg inNameOrder (List.map_congr_left ?_))
      intro e he
      simp only [Function.comp_apply, spotsOf]
      split
      · rfl
      · rw [ih e he, List.map_map]
        rfl

/-! ## Membership -/

/-- No closed directory lies on the way along names, except for the start. -/
def IsOpenTo (closed : Trail → Bool) (around : Trail) (t : FileTree)
    (names : List Text) : Prop :=
  ∀ front, front ≠ [] → front <+: names → ∀ around' es,
    descend? around t front = some (around', directory es) → closed (es :: around') = false

theorem isOpenTo_nil (closed : Trail → Bool) (around : Trail) (t : FileTree) :
    IsOpenTo closed around t [] :=
  fun _ hne hfront => absurd (List.prefix_nil.1 hfront) hne

theorem isOpenTo_cons {closed : Trail → Bool} {around : Trail} {t node : FileTree}
    {name : Text} {rest : List Text} (hchild : child? name t.entries = some node) :
    IsOpenTo closed around t (name :: rest) ↔
      (node.isDirectory && closed (node.entries :: t.entries :: around)) = false ∧
        IsOpenTo closed (t.entries :: around) node rest := by
  constructor
  · intro h
    constructor
    · cases node with
      | directory es =>
          have hfirst := h [name] (by simp) (by simp) (t.entries :: around) es
            (by simp [descend?, hchild])
          simpa [isDirectory, entries] using hfirst
      | file content => rfl
      | link target => rfl
    · intro front hne hfront around' es hdescend
      refine h (name :: front) (by simp) ((List.prefix_cons_inj name).2 hfront) around' es ?_
      simpa [descend?, hchild] using hdescend
  · rintro ⟨hfirst, hrest⟩ front hne hfront around' es hdescend
    cases front with
    | nil => exact absurd rfl hne
    | cons first front =>
        obtain ⟨rfl, hinside⟩ := List.cons_prefix_cons.1 hfront
        have hinner : descend? (t.entries :: around) node front =
            some (around', directory es) := by
          simpa [descend?, hchild] using hdescend
        by_cases hnil : front = []
        · subst hnil
          obtain ⟨rfl, rfl⟩ : t.entries :: around = around' ∧ node = directory es := by
            simpa [descend?] using hinner
          simpa [isDirectory, entries] using hfirst
        · exact hrest front hnil hinside around' es hinner

theorem mem_spotsOf {closed : Trail → Bool} {around : Trail} {e : Text × FileTree} {s : Spot} :
    s ∈ spotsOf closed around e ↔
      (e.2.isDirectory && closed (e.2.entries :: around)) = false ∧
        ∃ inner ∈ spotsAt closed around e.2, s = inner.under e.1 := by
  unfold spotsOf
  split
  · rename_i hclosed
    simp [hclosed]
  · rename_i hopen
    have hfirst : (e.2.isDirectory && closed (e.2.entries :: around)) = false := by
      simpa using hopen
    simp [hfirst, eq_comm]

/-- The spots of a walk are the nodes that a descent reaches without entering a
closed directory. -/
theorem mem_spotsAt {closed : Trail → Bool} {around : Trail} {t : FileTree}
    (hsound : t.IsSound) {s : Spot} :
    s ∈ spotsAt closed around t ↔
      descend? around t s.names = some (s.around, s.node) ∧
        IsOpenTo closed around t s.names := by
  induction t using byEntries generalizing around s with
  | file content =>
      obtain ⟨names, node, around'⟩ := s
      cases names with
      | nil => simp [spotsAt, descend?, isOpenTo_nil, eq_comm, and_comm]
      | cons name rest => simp [spotsAt, descend?, entries, child?]
  | link target =>
      obtain ⟨names, node, around'⟩ := s
      cases names with
      | nil => simp [spotsAt, descend?, isOpenTo_nil, eq_comm, and_comm]
      | cons name rest => simp [spotsAt, descend?, entries, child?]
  | directory es ih =>
      obtain ⟨names, node, around'⟩ := s
      simp only [spotsAt, List.mem_cons, mem_inNameOrder, spotsIn_eq, List.mem_map]
      cases names with
      | nil =>
          constructor
          · rintro (hs | ⟨_, ⟨e, he, rfl⟩, hs⟩)
            · obtain ⟨rfl, rfl⟩ : node = directory es ∧ around' = around := by simpa using hs
              exact ⟨rfl, isOpenTo_nil _ _ _⟩
            · obtain ⟨-, inner, -, hinner⟩ := mem_spotsOf.1 hs
              simp [Spot.under] at hinner
          · rintro ⟨hdescend, -⟩
            obtain ⟨rfl, rfl⟩ : around = around' ∧ directory es = node := by
              simpa [descend?] using hdescend
            exact Or.inl rfl
      | cons name rest =>
          constructor
          · rintro (hs | ⟨_, ⟨e, he, rfl⟩, hs⟩)
            · simp at hs
            · obtain ⟨hopen, inner, hinner, hunder⟩ := mem_spotsOf.1 hs
              obtain ⟨⟨rfl, rfl⟩, rfl, rfl⟩ : (name = e.1 ∧ rest = inner.names) ∧
                  node = inner.node ∧ around' = inner.around := by
                simpa [Spot.under] using hunder
              have hchild : child? e.1 (directory es).entries = some e.2 :=
                hsound.child?_eq_some_iff.2 he
              obtain ⟨hdescend, hrest⟩ := (ih e he (allNodes_child hsound hchild)).1 hinner
              refine ⟨?_, (isOpenTo_cons hchild).2 ⟨hopen, hrest⟩⟩
              rw [descend?, hchild]
              exact hdescend
          · rintro ⟨hdescend, hopen⟩
            obtain ⟨child, hchild, hrest⟩ := Option.bind_eq_some_iff.1 hdescend
            have he : (name, child) ∈ es := hsound.child?_eq_some_iff.1 hchild
            obtain ⟨hfirst, hopenRest⟩ := (isOpenTo_cons hchild).1 hopen
            have hinner :
                (⟨rest, node, around'⟩ : Spot) ∈ spotsAt closed (es :: around) child :=
              (ih (name, child) he (allNodes_child hsound hchild)).2 ⟨hrest, hopenRest⟩
            exact Or.inr ⟨_, ⟨(name, child), he, rfl⟩,
              mem_spotsOf.2 ⟨hfirst, _, hinner, rfl⟩⟩

/-- The names that lead to a spot are bare. -/
theorem isBare_of_mem_spotsAt {closed : Trail → Bool} {around : Trail} {t : FileTree}
    (hsound : t.IsSound) {s : Spot} (hs : s ∈ spotsAt closed around t) :
    ∀ n ∈ s.names, Path.IsBare n := fun n hn =>
  (hsound.names_of_below? (below?_of_descend? ((mem_spotsAt hsound).1 hs).1) n hn).bare

/-- Below the start of a walk, the spots are those with names. -/
theorem mem_spotsBelow {closed : Trail → Bool} {around : Trail} {es : Entries} {s : Spot} :
    s ∈ inNameOrder (spotsIn closed (es :: around) es) ↔
      s ∈ spotsAt closed around (directory es) ∧ s.names ≠ [] := by
  rw [spotsAt, List.mem_cons]
  constructor
  · intro hs
    refine ⟨Or.inr hs, ?_⟩
    rw [mem_inNameOrder, spotsIn_eq] at hs
    obtain ⟨named, hnamed, hs⟩ := hs
    obtain ⟨e, -, rfl⟩ := List.mem_map.1 hnamed
    obtain ⟨-, inner, -, rfl⟩ := mem_spotsOf.1 hs
    simp [Spot.under]
  · rintro ⟨rfl | hs, hne⟩
    · exact absurd rfl hne
    · exact hs

/-! ## The order of the spots -/

/-- The spots of a walk ascend in the lexicographic order of their names. -/
theorem spotsAt_ascend (closed : Trail → Bool) (around : Trail) {t : FileTree}
    (hsound : t.IsSound) : (spotsAt closed around t).Pairwise fun s s' => s.names < s'.names := by
  induction t using byEntries generalizing around with
  | file content => exact List.pairwise_singleton _ _
  | link target => exact List.pairwise_singleton _ _
  | directory es ih =>
      rw [spotsAt, List.pairwise_cons]
      constructor
      · intro s hs
        obtain ⟨name, rest, hnames⟩ := List.exists_cons_of_ne_nil (mem_spotsBelow.1 hs).2
        rw [hnames]
        exact List.nil_lt_cons name rest
      · rw [spotsIn_eq]
        apply inNameOrder_pairwise
        · rw [List.map_map]
          exact hsound.proper.1
        -- below one entry, all names start with that of the entry
        · intro named hnamed
          obtain ⟨e, he, rfl⟩ := List.mem_map.1 hnamed
          have hinner : e.2.IsSound :=
            allNodes_child hsound (hsound.child?_eq_some_iff.2 he : child? e.1 es = some e.2)
          show (spotsOf closed (es :: around) e).Pairwise _
          unfold spotsOf
          split
          · exact List.Pairwise.nil
          · refine List.pairwise_map.2 ((ih e he (es :: around) hinner).imp ?_)
            intro s s' hlt
            exact List.cons_lt_cons_iff.2 (Or.inr ⟨rfl, hlt⟩)
        -- below two entries, the first names decide
        · intro a ha b hb hab s hs s' hs'
          obtain ⟨e, -, rfl⟩ := List.mem_map.1 ha
          obtain ⟨e', -, rfl⟩ := List.mem_map.1 hb
          obtain ⟨-, inner, -, rfl⟩ := mem_spotsOf.1 hs
          obtain ⟨-, inner', -, rfl⟩ := mem_spotsOf.1 hs'
          exact List.cons_lt_cons_iff.2 (Or.inl hab)

/-- No spot is met twice. -/
theorem nodup_spotsAt (closed : Trail → Bool) (around : Trail) {t : FileTree}
    (hsound : t.IsSound) : ((spotsAt closed around t).map Spot.names).Nodup :=
  List.pairwise_map.2 ((spotsAt_ascend closed around hsound).imp fun hlt => hlt.ne)

/-! ## Walks from a directory -/

/-- A walk from a path that leads to a directory meets something at the path
itself, a link perhaps, and then all spots below the directory. -/
theorem exists_visits {tree : FileTree} {root : Path} {es : Entries} {around : Trail}
    (h : tree.locate root = .ok (.directory (es :: around))) (closed : Trail → Bool) :
    ∃ first : Visit, first.path = root ∧
      (first.node.isDirectory = true ∨ tree.IsLinkAt root) ∧
      tree.visits closed root = .ok (first ::
        (inNameOrder (spotsIn closed (es :: around) es)).map (Spot.visit root)) := by
  have hbelow : inNameOrder (visitsIn closed root (es :: around) es) =
      (inNameOrder (spotsIn closed (es :: around) es)).map (Spot.visit root) := by
    have hall := visitsAt_eq closed root around (directory es)
    rw [visitsAt, spotsAt, List.map_cons] at hall
    exact (List.cons.inj hall).2
  rcases follow_noFollow h with hfollow | ⟨around', target, hfollow⟩
  · refine ⟨⟨root, directory es, around⟩, rfl, Or.inl rfl, ?_⟩
    unfold visits
    simp only [hfollow, List.tail_cons, List.headD_cons, visitsAt, hbelow]
  · refine ⟨⟨root, link target, around'⟩, rfl, Or.inr ⟨around', target, hfollow⟩, ?_⟩
    have htrue : follow true [tree.entries] root.spelling = .ok (.directory (es :: around)) := h
    unfold visits
    simp only [hfollow, htrue, List.headD_cons, hbelow]

/-- No closed directory lies on the way along names, both ends left out. -/
def IsWayOpen (closed : Trail → Bool) (around : Trail) (t : FileTree)
    (names : List Text) : Prop :=
  ∀ front, front ≠ [] → front <+: names → front ≠ names → ∀ around' es,
    descend? around t front = some (around', directory es) → closed (es :: around') = false

/-- Where the way is open, a walk meets a directory exactly when it is not closed. -/
theorem exists_visit_iff {tree : FileTree} (hsound : tree.IsSound) {root : Path} {es : Entries}
    {around : Trail} (hlocate : tree.locate root = .ok (.directory (es :: around)))
    (closed : Trail → Bool) {names : List Text} (hne : names ≠ []) {around' : Trail}
    {es' : Entries}
    (hdescend : descend? around (directory es) names = some (around', directory es'))
    (hway : IsWayOpen closed around (directory es) names) :
    ∃ vs, tree.visits closed root = .ok vs ∧
      ((∃ v ∈ vs, v.path.components = (root.joinAll names).components) ↔
        closed (es' :: around') = false) := by
  have hsoundHere := hsound.of_locate hlocate
  have hbare : ∀ {other place}, descend? around (directory es) other = some place →
      ∀ n ∈ other, Path.IsBare n := fun hother n hn =>
    (hsoundHere.names_of_below? (below?_of_descend? hother) n hn).bare
  obtain ⟨first, hfirst, -, hvisits⟩ := exists_visits hlocate closed
  refine ⟨_, hvisits, ?_⟩
  constructor
  · rintro ⟨v, hv, hsame⟩
    rcases List.mem_cons.1 hv with rfl | hv
    · rw [hfirst, Path.components_joinAll _ (hbare hdescend)] at hsame
      have hnone := List.self_eq_append_right.1 hsame
      exact absurd (List.map_eq_nil_iff.1 hnone) hne
    · obtain ⟨s, hs, rfl⟩ := List.mem_map.1 hv
      obtain ⟨hmet, hopen⟩ := (mem_spotsAt hsoundHere).1 (mem_spotsBelow.1 hs).1
      have hnames : s.names = names :=
        Path.joinAll_components_inj root (hbare hmet) (hbare hdescend) hsame
      rw [hnames] at hopen
      exact hopen names hne (List.prefix_refl _) around' es' hdescend
  · intro hclosed
    have hs : (⟨names, directory es', around'⟩ : Spot) ∈
        inNameOrder (spotsIn closed (es :: around) es) := by
      refine mem_spotsBelow.2 ⟨(mem_spotsAt hsoundHere).2 ⟨hdescend, ?_⟩, hne⟩
      intro front hfront hbegins outer inner hinner
      by_cases hwhole : front = names
      · subst hwhole
        obtain ⟨rfl, rfl⟩ : around' = outer ∧ es' = inner := by
          simpa using hdescend.symm.trans hinner
        exact hclosed
      · exact hway front hfront hbegins hwhole outer inner hinner
    exact ⟨_, List.mem_cons_of_mem _ (List.mem_map.2 ⟨_, hs, rfl⟩), rfl⟩

end SetterReport.FileTree
