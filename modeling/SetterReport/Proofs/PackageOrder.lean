import Mathlib.Data.Char
import Mathlib.Data.Set.List
import SetterReport.Proofs.Discovery

/-!
# The order of the packages

In a tree without links discovery reports the directories at and below the root
that hold a marker entry: all of them, no other, and each once.  They come in the
order of their paths, component by component.

That order compares the ways from the root name by name, so it is the
lexicographic order of the ways (`strictMono_wayKey`).  What lies between a list and
a longer one that begins with it begins with it too (`isPrefix_of_between`).  Hence
the packages inside a package come directly after it, with no other between them
(`exists_nested`), though a name such as `a-b` would stand between `a` and `a/x` if
paths were compared as texts.

## Main result

* `directories_eq` — what discovery gives for every root: the fault of the root, the
  missing marker, or the packages in their order.
-/

namespace SetterReport.Package

open FileTree
open SetterReport.Path (IsBare Component)

/-! ## Lexicographic order -/

/-- What lies between a list and a longer one that begins with it begins with it. -/
theorem isPrefix_of_between {α : Type} [LinearOrder α] {a b c : List α} (hab : a <+: b)
    (hca : ¬c < a) (hbc : ¬b < c) : a <+: c := by
  induction a generalizing b c with
  | nil => exact List.nil_prefix
  | cons x a ih =>
      obtain ⟨rest, rfl⟩ := hab
      cases c with
      | nil => exact absurd (List.nil_lt_cons x a) hca
      | cons y c =>
          rw [List.cons_append] at hbc
          rw [List.cons_lt_cons_iff, not_or, not_and] at hca hbc
          obtain rfl : x = y := le_antisymm (not_lt.1 hca.1) (not_lt.1 hbc.1)
          exact (List.prefix_cons_inj x).2
            (ih (List.prefix_append a rest) (hca.2 rfl) (hbc.2 rfl))

/-- In a list that ascends strictly by lists, the members whose lists begin with that
of a member come directly after it. -/
theorem exists_nested {α β : Type} [LinearOrder α] {f : β → List α} {before after : List β}
    {d : β} (h : (before ++ d :: after).Pairwise fun p q => f p < f q) :
    ∃ inside outside, after = inside ++ outside ∧ (∀ q ∈ inside, f d <+: f q) ∧
      ∀ q ∈ before ++ outside, ¬f d <+: f q := by
  let nested : β → Bool := fun q => (f d).isPrefixOf (f q)
  have hnested : ∀ q, nested q = true ↔ f d <+: f q := fun q => List.isPrefixOf_iff_prefix
  have hsplit : after.takeWhile nested ++ after.dropWhile nested = after :=
    List.takeWhile_append_dropWhile
  refine ⟨after.takeWhile nested, after.dropWhile nested, hsplit.symm, ?_, ?_⟩
  · intro q hq
    have hall : ∀ q ∈ after.takeWhile nested, nested q = true := fun _ =>
      List.mem_takeWhile_imp
    exact (hnested q).1 (hall q hq)
  · obtain ⟨-, hlater, hbefore⟩ := List.pairwise_append.1 h
    obtain ⟨hd, hafter⟩ := List.pairwise_cons.1 hlater
    intro q hq hbegins
    have hnotBefore : ¬f q < f d := List.not_lt.2 (List.IsPrefix.le hbegins)
    rcases List.mem_append.1 hq with hq | hq
    · exact hnotBefore (hbefore q hq d (by simp))
    -- the first member that is not nested is no later than `q`, and so nested too
    · cases houtside : after.dropWhile nested with
      | nil => simp [houtside] at hq
      | cons first rest =>
          have hfirst : nested first = false := by
            have hhead := List.head?_dropWhile_not nested after
            simpa [houtside] using hhead
          rw [houtside] at hq hsplit
          have hmem : first ∈ after := by
            rw [← hsplit]
            simp
          have hnotAfter : ¬f q < f first := by
            rcases List.mem_cons.1 hq with rfl | hq
            · exact lt_irrefl _
            · rw [← hsplit] at hafter
              have hrest := (List.pairwise_append.1 hafter).2.1
              exact lt_asymm ((List.pairwise_cons.1 hrest).1 q hq)
          have hbetween : f d <+: f first :=
            isPrefix_of_between hbegins (lt_asymm (hd first hmem)) hnotAfter
          rw [(hnested first).2 hbetween] at hfirst
          exact absurd hfirst (by decide)

/-! ## Ways from the root -/

/-- The components of a path followed by names. -/
def wayComponents (root : Path) (names : List Text) : List Component :=
  root.components ++ names.map .name

theorem strictMono_key_name : StrictMono fun n : Text => (Component.name n).key := by
  intro a b hab
  have hchars : a.map Char.toNat < b.map Char.toNat :=
    List.map_lt (fun c d hcd => UInt32.lt_iff_toNat_lt.1 hcd) hab
  exact List.cons_lt_cons_iff.2 (Or.inr ⟨rfl, hchars⟩)

/-- Paths below a root are in the lexicographic order of the names that lead to them. -/
theorem strictMono_wayKey (root : Path) :
    StrictMono fun names => (wayComponents root names).map Component.key := by
  intro a b hab
  have hnames : (a.map Component.name).map Component.key <
      (b.map Component.name).map Component.key := by
    rw [List.map_map, List.map_map]
    exact List.map_lt (fun _ _ h => strictMono_key_name h) hab
  show (wayComponents root a).map _ < (wayComponents root b).map _
  rw [wayComponents, wayComponents, List.map_append, List.map_append]
  exact List.append_left_lt hnames

theorem wayComponents_injective (root : Path) : Function.Injective (wayComponents root) := by
  intro a b hab
  exact (strictMono_wayKey root).injective (congrArg (List.map Component.key) hab)

/-- Paths at these ways, if they ascend, are at ascending ways. -/
theorem ways_ascend {root : Path} {P : List Path} {ways : List (List Text)}
    (hways : P.map Path.components = ways.map (wayComponents root))
    (h : P.Pairwise fun p q => p.key < q.key) : ways.Pairwise (· < ·) := by
  have hkeys : P.map Path.key =
      ways.map fun names => (wayComponents root names).map Component.key := by
    have hmapped := congrArg (List.map (List.map Component.key)) hways
    rwa [List.map_map, List.map_map] at hmapped
  have hascend : (P.map Path.key).Pairwise (· < ·) := List.pairwise_map.2 h
  rw [hkeys, List.pairwise_map] at hascend
  exact hascend.imp (strictMono_wayKey root).lt_iff_lt.1

/-- The paths of directories at and below a root, in their order. -/
structure IsListing (root : Path) (isListed : List Text → Prop) (P : List Path) : Prop where
  /-- The paths are those at certain ways from the root, which ascend name by name, so
  that none comes twice; and these are the ways that are to be listed. -/
  exists_ways : ∃ ways : List (List Text), P.map Path.components = ways.map (wayComponents root) ∧
    ways.Pairwise (· < ·) ∧ ∀ names, names ∈ ways ↔ isListed names
  /-- The paths inside a path stand together directly after it. -/
  nested : ∀ before d after, P = before ++ d :: after →
    ∃ inside outside, after = inside ++ outside ∧
      (∀ q ∈ inside, d.components <+: q.components) ∧
      ∀ q ∈ before ++ outside, ¬d.components <+: q.components

theorem isListing_of_ascending {root : Path} {isListed : List Text → Prop} {P : List Path}
    (hascend : P.Pairwise fun p q => p.key < q.key)
    (hsound : ∀ d ∈ P, ∃ names, isListed names ∧ wayComponents root names = d.components)
    (hcomplete : ∀ names, isListed names → ∃ d ∈ P, d.components = wayComponents root names) :
    IsListing root isListed P := by
  constructor
  · have hrange : P.map Path.components ∈ Set.range (List.map (wayComponents root)) := by
      rw [Set.range_list_map]
      intro c hc
      obtain ⟨d, hd, rfl⟩ := List.mem_map.1 hc
      obtain ⟨names, -, hnames⟩ := hsound d hd
      exact ⟨names, hnames⟩
    obtain ⟨ways, hways⟩ := hrange
    refine ⟨ways, hways.symm, ways_ascend hways.symm hascend, fun names => ?_⟩
    rw [← List.mem_map_of_injective (wayComponents_injective root), hways, List.mem_map]
    constructor
    · rintro ⟨d, hd, hsame⟩
      obtain ⟨other, hother, hcomponents⟩ := hsound d hd
      rwa [← wayComponents_injective root (hcomponents.trans hsame)]
    · exact hcomplete names
  · rintro before d after rfl
    obtain ⟨inside, outside, hafter, hinside, houtside⟩ := exists_nested hascend
    have hbegins : ∀ q : Path, d.key <+: q.key ↔ d.components <+: q.components := fun q =>
      List.prefix_map_iff_of_injective Path.Component.key_injective
    refine ⟨inside, outside, hafter, fun q hq => (hbegins q).1 (hinside q hq), ?_⟩
    exact fun q hq hnested => houtside q hq ((hbegins q).2 hnested)

/-! ## What discovery gives -/

section Found

variable {tree : FileTree} {root : Path} {marker : Text} {es : Entries} {around : Trail}

/-- Names lead from a directory to one that holds a marker entry. -/
def LeadsToPackage (marker : Text) (es : Entries) (names : List Text) : Prop :=
  ∃ inner, (FileTree.directory es).below? names = some (.directory inner) ∧
    HoldsEntry marker inner

theorem components_joinAll_way (hsound : (FileTree.directory es).IsSound) {names : List Text}
    {inner : FileTree} (h : (FileTree.directory es).below? names = some inner) :
    (root.joinAll names).components = wayComponents root names :=
  Path.components_joinAll root fun n hn => (hsound.names_of_below? h n hn).bare

/-- Every package is at some way to a directory with a marker entry. -/
theorem exists_way (hsound : tree.IsSound) (hfree : tree.IsLinkFree)
    (hlocate : tree.locate root = .ok (.directory (es :: around))) {P : List Path}
    (hP : directories tree root marker = .ok P) {d : Path} (hd : d ∈ P) :
    ∃ names, LeadsToPackage marker es names ∧ wayComponents root names = d.components := by
  rcases exists_of_mem_directories hsound hlocate hP hd with
    ⟨names, around', inner, hdescend, hholds, hcomponents, -⟩ | ⟨hlink, -⟩
  · have hbelow := below?_of_descend? hdescend
    exact ⟨names, ⟨inner, hbelow, hholds⟩,
      (hcomponents.trans (components_joinAll_way (hsound.of_locate hlocate) hbelow)).symm⟩
  · exact absurd hlink (not_isLinkAt (hfree.follow_of_locate hlocate))

/-- A directory with a marker entry is reported. -/
theorem exists_package (hsound : tree.IsSound)
    (hlocate : tree.locate root = .ok (.directory (es :: around))) {names : List Text}
    (h : LeadsToPackage marker es names) :
    ∃ P, directories tree root marker = .ok P ∧
      ∃ d ∈ P, d.components = wayComponents root names := by
  obtain ⟨inner, hbelow, hholds⟩ := h
  obtain ⟨around', hdescend⟩ := exists_descend? around hbelow
  obtain ⟨P, hP, d, hd, hcomponents⟩ := exists_mem_directories hsound hlocate hdescend hholds
  exact ⟨P, hP, d, hd,
    hcomponents.trans (components_joinAll_way (hsound.of_locate hlocate) hbelow)⟩

/-- In a directory discovery gives the packages in order, or finds no marker. -/
theorem directories_of_locate (hsound : tree.IsSound) (hfree : tree.IsLinkFree)
    (hlocate : tree.locate root = .ok (.directory (es :: around))) (marker : Text) :
    (directories tree root marker = .error (.markerNotFound marker root.spelling) ∧
        ∀ names, ¬LeadsToPackage marker es names) ∨
      ∃ P, directories tree root marker = .ok P ∧ P ≠ [] ∧
        IsListing root (LeadsToPackage marker es) P := by
  obtain ⟨first, -, -, hfiles⟩ := markerFiles_eq hlocate marker
  cases hP : directories tree root marker with
  | error failure =>
      left
      refine ⟨?_, fun names hnames => ?_⟩
      · unfold directories at hP
        simp only [hfiles] at hP
        split at hP
        · exact hP.symm
        · simp at hP
      · obtain ⟨P, hfound, -⟩ := exists_package hsound hlocate hnames
        simp [hfound] at hP
  | ok P =>
      right
      have hlist : P ≠ [] ∧ P.Pairwise fun p q => p.key < q.key := by
        unfold directories at hP
        simp only [hfiles] at hP
        split at hP
        · simp at hP
        · rename_i hparents
          obtain rfl := Except.ok.inj hP
          obtain ⟨p, hp⟩ := List.exists_mem_of_ne_nil _ hparents
          obtain ⟨q, hq, -⟩ := Path.exists_mem_sorted hp
          exact ⟨List.ne_nil_of_mem hq, Path.sorted_pairwise _⟩
      refine ⟨P, rfl, hlist.1, isListing_of_ascending hlist.2 ?_ ?_⟩
      · exact fun d hd => exists_way hsound hfree hlocate hP hd
      · intro names hnames
        obtain ⟨P', hP', hmem⟩ := exists_package hsound hlocate hnames
        obtain rfl := Except.ok.inj (hP'.symm.trans hP)
        exact hmem

end Found

/-- What discovery gives in a tree without links.  A root that leads nowhere, or to a
file, fails with that fault.  Otherwise the marker is not found exactly when no
directory at or below the root holds a marker entry; and if one does, the packages
are the directories that do, listed in their order. -/
theorem directories_eq {tree : FileTree} (hsound : tree.IsSound) (hfree : tree.IsLinkFree)
    (root : Path) (marker : Text) :
    match tree.locate root with
    | .error fault =>
      directories tree root marker = .error (.ofFile root.spelling fault.report)
    | .ok (.directory trail) =>
      let isPackage := LeadsToPackage marker (trail.headD [])
      (directories tree root marker = .error (.markerNotFound marker root.spelling) ↔
          ∀ names, ¬isPackage names) ∧
        ((∃ names, isPackage names) →
          ∃ P, directories tree root marker = .ok P ∧ IsListing root isPackage P)
    | .ok _ => directories tree root marker =
        .error (.ofFile root.spelling Fault.notADirectory.report) := by
  have hother : ∀ place, tree.locate root = .ok place → (∀ trail, place ≠ .directory trail) →
      directories tree root marker =
        .error (.ofFile root.spelling Fault.notADirectory.report) := by
    intro place hlocate hplace
    unfold directories markerFiles
    cases place with
    | directory trail => exact absurd rfl (hplace trail)
    | file content => simp only [hlocate]
    | link outer target => simp only [hlocate]
  split
  · rename_i fault hlocate
    unfold directories markerFiles
    simp only [hlocate]
  · rename_i trail hlocate
    obtain ⟨es, around, rfl⟩ :=
      List.exists_cons_of_ne_nil (hsound.isTrail.follow hlocate).ne_nil
    intro isPackage
    rcases directories_of_locate hsound hfree hlocate marker with
      ⟨hnone, hempty⟩ | ⟨P, hP, hne, hlisting⟩
    · exact ⟨⟨fun _ => hempty, fun _ => hnone⟩, fun ⟨names, hnames⟩ =>
        absurd hnames (hempty names)⟩
    · refine ⟨⟨fun hnone => ?_, fun hempty => ?_⟩, fun _ => ⟨P, hP, hlisting⟩⟩
      · simp [hnone] at hP
      · obtain ⟨ways, hways, -, hmem⟩ := hlisting.exists_ways
        have hwaysNe : ways ≠ [] := by
          rintro rfl
          exact hne (List.map_eq_nil_iff.1 hways)
        obtain ⟨names, hnames⟩ := List.exists_mem_of_ne_nil _ hwaysNe
        exact absurd ((hmem names).1 hnames) (hempty names)
  · rename_i place hplace hlocate
    exact hother place hlocate fun trail htrail => hplace trail htrail

/-- A directory with nothing but an empty marker file. -/
def markedEntries : Entries := [("Krmfile".toList, ofText [])]

/-- A package with another one inside, beside a package whose name continues its own
with a character that comes before the slash. -/
def hyphenTree : FileTree :=
  .directory [("a-b".toList, .directory markedEntries),
    ("a".toList, .directory (("x".toList, .directory markedEntries) :: markedEntries))]

/-- The general statement at this tree: the package inside comes before the other. -/
theorem directories_eq_hyphen :
    directories hyphenTree ⟨['.']⟩ "Krmfile".toList =
        .ok [⟨"./a".toList⟩, ⟨"./a/x".toList⟩, ⟨"./a-b".toList⟩] ∧
      IsListing ⟨['.']⟩ (LeadsToPackage "Krmfile".toList hyphenTree.entries)
        [⟨"./a".toList⟩, ⟨"./a/x".toList⟩, ⟨"./a-b".toList⟩] := by
  have hlocate : hyphenTree.locate ⟨['.']⟩ = .ok (.directory [hyphenTree.entries]) := by rfl
  have hP : directories hyphenTree ⟨['.']⟩ "Krmfile".toList =
      .ok [⟨"./a".toList⟩, ⟨"./a/x".toList⟩, ⟨"./a-b".toList⟩] := by
    decide +kernel
  have hgeneral := @directories_eq hyphenTree (by decide +kernel) (by decide +kernel) ⟨['.']⟩
    "Krmfile".toList
  rw [hlocate] at hgeneral
  obtain ⟨P, hfound, hlisting⟩ :=
    hgeneral.2 ⟨["a-b".toList], markedEntries, rfl, ofText [], rfl, rfl⟩
  obtain rfl := Except.ok.inj (hP.symm.trans hfound)
  exact ⟨hP, hlisting⟩

end SetterReport.Package
