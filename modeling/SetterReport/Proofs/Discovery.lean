import SetterReport.Package
import SetterReport.Proofs.WalkSpots
import SetterReport.Usage

/-!
# Which directories are packages

Discovery looks at the entries of a directory as they are: an entry with the
marker's name that is no directory makes a package, a link as well as a file
(`HoldsEntry`).  Counting asks whether the marker's name leads to a file, so a
link counts only if there is a file behind it.

## Main results

* `exists_of_mem_directories`, `exists_mem_directories` — the reported paths are
  those of the directories that hold such an entry.
* `agreement_iff` — the two tests agree on a directory exactly when it has no
  link with the marker's name behind which there is no file.
-/

namespace SetterReport.Package

open FileTree
open SetterReport.Path (IsBare)

/-- A directory has an entry with the marker's name that is no directory. -/
def HoldsEntry (marker : Text) (es : Entries) : Prop :=
  ∃ node, child? marker es = some node ∧ node.isDirectory = false

/-- Names lead to an entry with the marker's name that is no directory.  The way enters no
link, since a link has no entries. -/
def LeadsToMarker (marker : Text) (es : Entries) (names : List Text) : Prop :=
  names.getLast? = some marker ∧
    ∃ node, (FileTree.directory es).below? names = some node ∧ node.isDirectory = false

section Found

variable {tree : FileTree} {root : Path} {marker : Text} {es : Entries} {around : Trail}

/-- A spot below the root is a marker if its name is the marker's. -/
theorem isMarker_visit {s : Spot} {front : List Text} {name : Text}
    (hnames : s.names = front ++ [name]) (hname : IsBare name) :
    isMarker marker (s.visit root) = (!s.node.isDirectory && name == marker) := by
  have hfile : (s.visit root).path.fileName? = some name := by
    show (root.joinAll s.names).fileName? = _
    rw [hnames, Path.joinAll_concat, Path.fileName?_join _ hname]
  unfold isMarker Visit.name
  rw [hfile]
  rfl

/-- A marker spot is an entry of the directory that its other names lead to. -/
theorem exists_of_isMarker (hsound : (FileTree.directory es).IsSound) {s : Spot}
    (hs : s ∈ inNameOrder (spotsIn (fun _ => false) (es :: around) es))
    (hmarker : isMarker marker (s.visit root) = true) :
    ∃ front around' es', s.names = front ++ [marker] ∧ IsBare marker ∧
      descend? around (.directory es) front = some (around', .directory es') ∧
      HoldsEntry marker es' := by
  obtain ⟨hs, hne⟩ := mem_spotsBelow.1 hs
  obtain ⟨hdescend, -⟩ := (mem_spotsAt hsound).1 hs
  obtain ⟨front, name, hnames⟩ := (List.eq_nil_or_concat s.names).resolve_left hne
  rw [List.concat_eq_append] at hnames
  have hname : IsBare name :=
    (hsound.names_of_below? (below?_of_descend? hdescend) name (by simp [hnames])).bare
  rw [isMarker_visit hnames hname, Bool.and_eq_true, beq_iff_eq] at hmarker
  obtain ⟨hnode, rfl⟩ := hmarker
  rw [hnames] at hdescend
  obtain ⟨around', es', hfront, hchild, -⟩ := descend?_concat_iff.1 hdescend
  exact ⟨front, around', es', hnames, hname, hfront, s.node, hchild, by simpa using hnode⟩

/-- The marker spots below a directory are at the ways to its marker entries. -/
theorem exists_isMarker_iff (hsound : (FileTree.directory es).IsSound)
    (around : Trail) (root : Path) (marker : Text) {names : List Text} :
    (∃ s ∈ inNameOrder (spotsIn (fun _ => false) (es :: around) es),
        isMarker marker (s.visit root) = true ∧ s.names = names) ↔
      LeadsToMarker marker es names := by
  constructor
  · rintro ⟨s, hs, hmarker, rfl⟩
    obtain ⟨front, around', es', hnames, -, hfront, node, hchild, hnode⟩ :=
      exists_of_isMarker hsound hs hmarker
    rw [hnames]
    exact ⟨List.getLast?_concat, node,
      below?_concat_iff.2 ⟨es', below?_of_descend? hfront, hchild⟩, hnode⟩
  · rintro ⟨hlast, node, hbelow, hnode⟩
    obtain ⟨front, rfl⟩ := List.getLast?_eq_some_iff.1 hlast
    obtain ⟨around', hdescend⟩ := exists_descend? around hbelow
    have hbare : IsBare marker := (hsound.names_of_below? hbelow marker (by simp)).bare
    let s : Spot := ⟨front ++ [marker], node, around'⟩
    have hs : s ∈ inNameOrder (spotsIn (fun _ => false) (es :: around) es) :=
      mem_spotsBelow.2 ⟨(mem_spotsAt hsound).2 ⟨hdescend, fun _ _ _ _ _ _ => rfl⟩, by simp [s]⟩
    refine ⟨s, hs, ?_, rfl⟩
    rw [isMarker_visit rfl hbare]
    simp [s, hnode]

/-- If the last part of a path, or else the path itself, is a bare name, then this
is the path's file name. -/
theorem fileName?_of_getD {p : Path} {name : Text} (hname : IsBare name)
    (h : p.fileName?.getD p.spelling = name) : p.fileName? = some name := by
  cases hp : p.fileName? with
  | some last => simpa [hp] using h
  | none =>
      have hspelling : p.spelling = name := by simpa [hp] using h
      unfold Path.fileName? Path.stepsBack at hp
      rw [hspelling, Path.split_of_isBare hname] at hp
      simp [hname.not_idle, hname.ne_up] at hp

theorem markerFiles_eq (hlocate : tree.locate root = .ok (.directory (es :: around)))
    (marker : Text) :
    ∃ first : Visit, first.path = root ∧
      (first.node.isDirectory = true ∨ tree.IsLinkAt root) ∧
      markerFiles tree root marker = .ok (((first ::
        (inNameOrder (spotsIn (fun _ => false) (es :: around) es)).map (Spot.visit root)).filter
          (isMarker marker)).map Visit.path) := by
  obtain ⟨first, hpath, hfirst, hvisits⟩ := exists_visits hlocate (fun _ => false)
  refine ⟨first, hpath, hfirst, ?_⟩
  unfold markerFiles
  simp only [hlocate, hvisits]

/-- Packages are only looked for in a directory. -/
theorem exists_locate_of_directories (hsound : tree.IsSound) {P : List Path}
    (hP : directories tree root marker = .ok P) :
    ∃ es around, tree.locate root = .ok (.directory (es :: around)) := by
  unfold directories markerFiles at hP
  cases hlocate : tree.locate root with
  | error fault => simp [hlocate] at hP
  | ok place =>
      cases place with
      | file content => simp [hlocate] at hP
      | link around target => simp [hlocate] at hP
      | directory trail =>
          match trail, (hsound.isTrail.follow hlocate).ne_nil with
          | es :: around, _ => exact ⟨es, around, rfl⟩

/-- No directory is reported twice. -/
theorem directories_nodup {P : List Path} (hP : directories tree root marker = .ok P) :
    (P.map Path.components).Nodup := by
  unfold directories at hP
  split at hP
  · simp at hP
  · split at hP
    · simp at hP
    · obtain rfl := Except.ok.inj hP
      exact Path.sorted_components_nodup _

/-- A reported path belongs to a directory that holds a marker entry; or the
root is itself a link with the marker's name, and what surrounds it is reported. -/
theorem exists_of_mem_directories (hsound : tree.IsSound)
    (hlocate : tree.locate root = .ok (.directory (es :: around))) {P : List Path}
    (hP : directories tree root marker = .ok P) {d : Path} (hd : d ∈ P) :
    (∃ names around' es',
      descend? around (.directory es) names = some (around', .directory es') ∧
      HoldsEntry marker es' ∧ d.components = (root.joinAll names).components ∧
      d.spelling <+: ((root.joinAll names).join marker).spelling) ∨
    (tree.IsLinkAt root ∧
      (IsBare marker → d.components.length < root.components.length)) := by
  obtain ⟨first, hpath, hfirst, hfiles⟩ := markerFiles_eq hlocate marker
  have hparent : ∃ file, file ∈ ((first ::
      (inNameOrder (spotsIn (fun _ => false) (es :: around) es)).map (Spot.visit root)).filter
        (isMarker marker)).map Visit.path ∧ file.parent? = some d := by
    unfold directories at hP
    rw [hfiles] at hP
    simp only at hP
    split at hP
    · simp at hP
    · rename_i hparents
      obtain rfl := Except.ok.inj hP
      have hmem := Path.mem_of_mem_sorted hd
      exact List.mem_filterMap.1 hmem
  obtain ⟨file, hfile, hparent⟩ := hparent
  obtain ⟨v, hv, rfl⟩ := List.mem_map.1 hfile
  obtain ⟨hv, hmarker⟩ := List.mem_filter.1 hv
  rcases List.mem_cons.1 hv with rfl | hv
  · right
    rw [hpath] at hparent
    have hboth : (!v.node.isDirectory && v.name == marker) = true := hmarker
    rw [Bool.and_eq_true, Bool.not_eq_true', beq_iff_eq] at hboth
    obtain ⟨hnode, hname⟩ := hboth
    refine ⟨hfirst.resolve_left (by simp [hnode]), fun hbare => ?_⟩
    unfold Visit.name at hname
    rw [hpath] at hname
    exact Path.length_components_of_parent? (fileName?_of_getD hbare hname) hparent
  · left
    obtain ⟨s, hs, rfl⟩ := List.mem_map.1 hv
    obtain ⟨front, around', es', hnames, hbare, hfront, hholds⟩ :=
      exists_of_isMarker (hsound.of_locate hlocate) hs hmarker
    have hjoined : (s.visit root).path = (root.joinAll front).join marker := by
      show root.joinAll s.names = _
      rw [hnames, Path.joinAll_concat]
    rw [hjoined] at hparent
    obtain ⟨_, hd', hbegins, hcomponents⟩ := Path.exists_parent_join (root.joinAll front) hbare
    obtain rfl := Option.some.inj (hparent.symm.trans hd')
    exact ⟨front, around', es', hfront, hholds, hcomponents, hbegins⟩

/-- A directory that holds a marker entry is reported. -/
theorem exists_mem_directories (hsound : tree.IsSound)
    (hlocate : tree.locate root = .ok (.directory (es :: around))) {names : List Text}
    {around' : Trail} {es' : Entries}
    (hdescend : descend? around (.directory es) names = some (around', .directory es'))
    (hholds : HoldsEntry marker es') :
    ∃ P, directories tree root marker = .ok P ∧
      ∃ d ∈ P, d.components = (root.joinAll names).components := by
  obtain ⟨node, hchild, hnode⟩ := hholds
  obtain ⟨first, -, -, hfiles⟩ := markerFiles_eq hlocate marker
  have hsoundHere := hsound.of_locate hlocate
  have hbelow : (FileTree.directory es).below? (names ++ [marker]) = some node :=
    below?_concat_iff.2 ⟨es', below?_of_descend? hdescend, hchild⟩
  have hbare : IsBare marker := (hsoundHere.names_of_below? hbelow marker (by simp)).bare
  obtain ⟨s, hs, hmarker, hnames⟩ := (exists_isMarker_iff hsoundHere around root marker).2
    ⟨List.getLast?_concat, node, hbelow, hnode⟩
  have hpath : (s.visit root).path = (root.joinAll names).join marker := by
    show root.joinAll s.names = _
    rw [hnames, Path.joinAll_concat]
  obtain ⟨d, hd, -, hcomponents⟩ := Path.exists_parent_join (root.joinAll names) hbare
  have hmem : d ∈ (((first ::
      (inNameOrder (spotsIn (fun _ => false) (es :: around) es)).map (Spot.visit root)).filter
        (isMarker marker)).map Visit.path).filterMap Path.parent? := by
    refine List.mem_filterMap.2 ⟨(s.visit root).path, List.mem_map.2 ⟨_, ?_, rfl⟩, ?_⟩
    · exact List.mem_filter.2 ⟨List.mem_cons_of_mem _ (List.mem_map.2 ⟨s, hs, rfl⟩), hmarker⟩
    · rw [hpath]
      exact hd
  obtain ⟨found, hfound, hsame⟩ := Path.exists_mem_sorted hmem
  refine ⟨_, ?_, found, hfound, hsame.trans hcomponents⟩
  unfold directories
  rw [hfiles]
  simp only
  split
  · rename_i hnone
    rw [hnone] at hmem
    simp at hmem
  · rfl

/-- The reported directories are those that hold a marker entry. -/
theorem mem_directories_iff (hsound : tree.IsSound) (hmarker : IsBare marker)
    (hlocate : tree.locate root = .ok (.directory (es :: around))) {names : List Text}
    {around' : Trail} {es' : Entries}
    (hdescend : descend? around (.directory es) names = some (around', .directory es')) :
    (∃ P, directories tree root marker = .ok P ∧
      ∃ d ∈ P, d.components = (root.joinAll names).components) ↔ HoldsEntry marker es' := by
  have hsoundHere := hsound.of_locate hlocate
  have hbare : ∀ {other place}, descend? around (.directory es) other = some place →
      ∀ n ∈ other, IsBare n := fun hother n hn =>
    (hsoundHere.names_of_below? (below?_of_descend? hother) n hn).bare
  constructor
  · rintro ⟨P, hP, d, hd, hsame⟩
    rcases exists_of_mem_directories hsound hlocate hP hd with
      ⟨other, around'', es'', hother, hholds, hcomponents, -⟩ | ⟨-, hshorter⟩
    · obtain rfl : other = names := Path.joinAll_components_inj root (hbare hother)
        (hbare hdescend) (hcomponents.symm.trans hsame)
      obtain ⟨rfl, rfl⟩ : around'' = around' ∧ es'' = es' := by
        simpa using hother.symm.trans hdescend
      exact hholds
    · have hlength := hshorter hmarker
      rw [hsame, Path.components_joinAll _ (hbare hdescend), List.length_append] at hlength
      omega
  · exact exists_mem_directories hsound hlocate hdescend

end Found

/-! ## The two tests -/

/-- The walk of the package in a directory leaves out the directory that names
lead to from there. -/
def Refuses (tree : FileTree) (marker : Text) (directory : Path) (names : List Text) : Prop :=
  ∃ vs, tree.visits (Usage.holdsMarker marker) directory = .ok vs ∧
    ∀ v ∈ vs, v.path.components ≠ (directory.joinAll names).components

/-- Discovery and counting agree on whether a directory is a package exactly when
there is a file behind a link with the marker's name, if it has such a link.
Counting takes a directory for a package when it refuses to go into it from a
package further out. -/
theorem agreement_iff {tree : FileTree} (hsound : tree.IsSound) {root : Path} {marker : Text}
    (hmarker : IsBare marker) {es : Entries} {around : Trail}
    (hlocate : tree.locate root = .ok (.directory (es :: around))) {names : List Text}
    {around' : Trail} {es' : Entries}
    (hdescend : descend? around (.directory es) names = some (around', .directory es')) :
    let isReported := ∃ P, directories tree root marker = .ok P ∧
      ∃ d ∈ P, d.components = (root.joinAll names).components
    let isClosed := Usage.holdsMarker marker (es' :: around') = true
    (isReported ↔ HoldsEntry marker es') ∧
      (isClosed ↔ (∃ content, child? marker es' = some (.file content)) ∨
        ∃ target content, child? marker es' = some (.link target) ∧
          behind (es' :: around') target = .ok (.file content)) ∧
      (∀ (d : Path) (fs : Entries) (outer : Trail) (inner : List Text),
        tree.locate d = .ok (.directory (fs :: outer)) → inner ≠ [] →
        descend? outer (.directory fs) inner = some (around', .directory es') →
        IsWayOpen (Usage.holdsMarker marker) outer (.directory fs) inner →
        (Refuses tree marker d inner ↔ isClosed)) ∧
      ((isReported ↔ isClosed) ↔ ∀ target, child? marker es' = some (.link target) →
        ∃ content, behind (es' :: around') target = .ok (.file content)) := by
  intro isReported isClosed
  have hsoundHere : (FileTree.directory es').IsSound :=
    allNodes_below? (hsound.of_locate hlocate) (below?_of_descend? hdescend)
  have hreported : isReported ↔ HoldsEntry marker es' :=
    mem_directories_iff hsound hmarker hlocate hdescend
  have hclosed := isFileFrom_iff around' hmarker hsoundHere
  refine ⟨hreported, hclosed, ?_, ?_⟩
  · intro d fs outer inner hd hinner hinside hway
    obtain ⟨vs, hvisits, hmet⟩ := exists_visit_iff hsound hd _ hinner hinside hway
    have hrefuses : Refuses tree marker d inner ↔
        ¬∃ v ∈ vs, v.path.components = (d.joinAll inner).components := by
      unfold Refuses
      simp [hvisits]
    rw [hrefuses, hmet, Bool.not_eq_false]
  · rw [hreported]
    show (_ ↔ isFileFrom (es' :: around') marker = true) ↔ _
    rw [hclosed]
    unfold HoldsEntry
    cases hchild : child? marker es' with
    | none => simp
    | some node =>
        cases node with
        | directory inner => simp [isDirectory]
        | file content => simp [isDirectory]
        | link target => simp [isDirectory]

/-- The entries of a directory in which the marker's name leads nowhere. -/
def danglingEntries : Entries :=
  [("Krmfile".toList, .link "missing".toList)]

/-- A package with such a directory below it. -/
def danglingTree : FileTree :=
  .directory [("Krmfile".toList, ofText []), ("sub".toList, .directory danglingEntries)]

theorem locate_danglingTree :
    danglingTree.locate ⟨['.']⟩ = .ok (.directory [danglingTree.entries]) := by rfl

theorem descend?_danglingTree :
    descend? [] (.directory danglingTree.entries) ["sub".toList] =
      some ([danglingTree.entries], .directory danglingEntries) := by rfl

/-- The general statement at the directory with the dangling link. -/
theorem agreement_iff_dangling :
    let isReported := ∃ P, directories danglingTree ⟨['.']⟩ "Krmfile".toList = .ok P ∧
      ∃ d ∈ P, d.components = (Path.joinAll ⟨['.']⟩ ["sub".toList]).components
    let isClosed := Usage.holdsMarker "Krmfile".toList
      [danglingEntries, danglingTree.entries] = true
    (isReported ↔ isClosed) ↔
      ∀ target, child? "Krmfile".toList danglingEntries = some (.link target) →
        ∃ content, behind [danglingEntries, danglingTree.entries] target =
          .ok (.file content) :=
  (agreement_iff (by decide +kernel) (by decide +kernel) locate_danglingTree
    descend?_danglingTree).2.2.2

/-- The directory with the dangling link is reported, and the walk of the package
around it goes into it nevertheless. -/
theorem dangling_reported_and_open :
    (∃ P, directories danglingTree ⟨['.']⟩ "Krmfile".toList = .ok P ∧
      ∃ d ∈ P, d.components = (Path.joinAll ⟨['.']⟩ ["sub".toList]).components) ∧
    ¬Refuses danglingTree "Krmfile".toList ⟨['.']⟩ ["sub".toList] := by
  have hsound : danglingTree.IsSound := by decide +kernel
  constructor
  · exact exists_mem_directories hsound locate_danglingTree descend?_danglingTree
      ⟨.link "missing".toList, rfl, rfl⟩
  · have hway : IsWayOpen (Usage.holdsMarker "Krmfile".toList) []
        (.directory danglingTree.entries) ["sub".toList] := by
      intro front hne hbegins hproper
      rcases List.prefix_cons_iff.1 hbegins with rfl | ⟨rest, rfl, hrest⟩
      · exact absurd rfl hne
      · rw [List.prefix_nil.1 hrest] at hproper
        exact absurd rfl hproper
    obtain ⟨vs, hvisits, hmet⟩ := exists_visit_iff hsound locate_danglingTree
      (Usage.holdsMarker "Krmfile".toList) (by decide) descend?_danglingTree hway
    rintro ⟨vs', hvisits', hnone⟩
    obtain rfl := Except.ok.inj (hvisits.symm.trans hvisits')
    obtain ⟨v, hv, hsame⟩ := hmet.2 (by decide +kernel)
    exact hnone v hv hsame

end SetterReport.Package
