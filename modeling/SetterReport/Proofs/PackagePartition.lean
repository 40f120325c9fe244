import SetterReport.Proofs.Discovery
import SetterReport.Proofs.FieldCount

/-!
# Every field is counted in one package

Discovery reports a directory by its entries, and counting stays out of a
directory in which it finds a marker.  In a tree without links both come to the
same, so the walks of the reported packages divide what lies below them: a file
is met on the walk of the nearest package around it and on no other.

Two packages that met the same file would lie one inside the other on the way to
it, and the walk of the outer one does not enter the inner one
(`ownFields_disjoint`).  Of the packages around a file the nearest one has no
other below it on that way (`exists_nearest`), so its walk does meet the file.

## Main result

* `sum_count_collect` — the counts of all packages add up to the number of fields
  with a package around them, each of which belongs to exactly one package.
-/

namespace SetterReport.Usage

open FileTree
open Package (directories HoldsEntry)

/-- Names lead from the root to a resource file with this text, and a directory on
the way, the root perhaps, is one of some packages. -/
def enclosedFiles (marker : Text) (root : Path) (packages : List Path) (t : FileTree)
    (names : List Text) (text : Text) : Prop :=
  IsResourceFile marker t names text ∧ ∃ front rest, names = front ++ rest ∧ rest ≠ [] ∧
    ∃ d ∈ packages, d.components = (root.joinAll front).components

/-- The fields of the package in a directory that refer to a name, told by names
from the root. -/
def ownFields (marker : Text) (root : Path) (t : FileTree) (name : Text) (d : Path) :
    Set (List Text × Nat) :=
  {site | ∃ front rest es, t.below? front = some (.directory es) ∧
    d.components = (root.joinAll front).components ∧ site.1 = front ++ rest ∧
    (rest, site.2) ∈ fieldsIn (packageFiles marker (.directory es)) {name}}

/-! ## The nearest package -/

/-- Of the beginnings of a list that satisfy `p`, one is the longest. -/
theorem exists_nearest {p : List Text → Prop} {front rest : List Text} (hp : p front)
    (hne : rest ≠ []) :
    ∃ near inner, front ++ rest = near ++ inner ∧ inner ≠ [] ∧ p near ∧
      ∀ more, more ≠ [] → more <+: inner → more ≠ inner → ¬p (near ++ more) := by
  induction hlength : rest.length using Nat.strong_induction_on generalizing front rest with
  | _ n ih =>
      by_cases hlonger : ∃ more, more ≠ [] ∧ more <+: rest ∧ more ≠ rest ∧ p (front ++ more)
      · obtain ⟨more, hmore, ⟨tail, rfl⟩, htail, hlonger⟩ := hlonger
        have htailNe : tail ≠ [] := by
          rintro rfl
          exact htail (List.append_nil more).symm
        have hshorter : tail.length < n := by
          have := List.length_pos_iff.2 hmore
          rw [← hlength, List.length_append]
          omega
        obtain ⟨near, inner, hsplit, hrest⟩ := ih _ hshorter hlonger htailNe rfl
        exact ⟨near, inner, by rw [← hsplit, List.append_assoc], hrest⟩
      · exact ⟨front, rest, rfl, hne, hp,
          fun more hmore hbegins hproper hlonger' =>
            hlonger ⟨more, hmore, hbegins, hproper, hlonger'⟩⟩

/-! ## Packages below a root -/

section Below

variable {tree : FileTree} {root : Path} {marker : Text} {es : Entries} {around : Trail}
  {P : List Path}

/-- A reported directory of a tree without links can be opened, and the marker in
it is a file. -/
theorem exists_of_mem_packages (hsound : tree.IsSound) (hfree : tree.IsLinkFree)
    (hlocate : tree.locate root = .ok (.directory (es :: around)))
    (hP : directories tree root marker = .ok P) {d : Path} (hd : d ∈ P)
    (hlength : d.spelling.utf8Length < tooLongPath) :
    ∃ names around' es' content,
      descend? around (.directory es) names = some (around', .directory es') ∧
      child? marker es' = some (.file content) ∧
      d.components = (root.joinAll names).components ∧
      tree.locate d = .ok (.directory (es' :: around')) := by
  have hsoundHere := hsound.of_locate hlocate
  have hfreeHere := hfree.of_locate hlocate
  obtain ⟨hopen, henter⟩ := (follow_eq_directory_iff hfree true _ _).1 hlocate
  rcases Package.exists_of_mem_directories hsound hlocate hP hd with
    ⟨names, around', es', hdescend, ⟨node, hchild, hnode⟩, hcomponents, hbegins⟩ |
    ⟨hlink, -⟩
  · have hbelow := below?_of_descend? hdescend
    have hentry := hsoundHere.names_of_below? hbelow
    have hbare : ∀ n ∈ names, Path.IsBare n := fun n hn => (hentry n hn).bare
    have hsoundBelow : (FileTree.directory es').IsSound := allNodes_below? hsoundHere hbelow
    have hmarker : IsEntryName marker := hsoundBelow.isEntryName hchild
    obtain ⟨hlead, hmoves⟩ := (Path.components_eq_iff _ _).1 hcomponents
    rw [Path.moves_joinAll _ hbare] at hmoves
    have hopenHere : IsOpenable d.spelling := by
      refine ⟨?_, ?_, hlength⟩
      · intro hzero
        rcases Path.mem_join (hbegins.subset hzero) with hzero | hzero | hzero
        · rcases Path.mem_joinAll hzero with hzero | hzero | ⟨n, hn, hzero⟩
          · exact hopen.noZero hzero
          · exact absurd hzero (by decide)
          · exact (hentry n hn).noZero hzero
        · exact absurd hzero (by decide)
        · exact hmarker.noZero hzero
      · intro hnil
        rw [Path.components_eq_nil_iff.2 hnil, Path.components_joinAll _ hbare] at hcomponents
        exact hopen.ne_nil
          (Path.components_eq_nil_iff.1 (List.append_eq_nil_iff.1 hcomponents.symm).1)
    have henterHere : enter [tree.entries] (Path.moves d.spelling) = some (es' :: around') := by
      rw [hmoves, enter_append, henter]
      exact (enter_names_iff hentry _).2 ⟨around', es', hdescend, rfl⟩
    have hlocateHere : tree.locate d = .ok (.directory (es' :: around')) :=
      (follow_eq_directory_iff hfree true _ _).2 ⟨hopenHere, henterHere⟩
    cases node with
    | file content =>
        exact ⟨names, around', es', content, hdescend, hchild, hcomponents, hlocateHere⟩
    | directory inner => simp [isDirectory] at hnode
    | link target =>
        have hfreeBelow : (FileTree.directory es').IsLinkFree :=
          allNodes_below? hfreeHere hbelow
        exact absurd (allNodes_child hfreeBelow hchild) (by simp [allNodes, isNoLink])
  · exact absurd hlink (not_isLinkAt (hfree.follow_of_locate hlocate))

/-- The directory that a reported path belongs to holds a marker file. -/
theorem exists_marker_of_mem_packages (hsound : tree.IsSound) (hfree : tree.IsLinkFree)
    (hlocate : tree.locate root = .ok (.directory (es :: around)))
    (hP : directories tree root marker = .ok P) {d : Path} (hd : d ∈ P)
    (hlength : d.spelling.utf8Length < tooLongPath) {names : List Text} {es' : Entries}
    (hbelow : (FileTree.directory es).below? names = some (.directory es'))
    (hcomponents : d.components = (root.joinAll names).components) :
    (∃ around', tree.locate d = .ok (.directory (es' :: around'))) ∧
      ∃ content, child? marker es' = some (.file content) := by
  have hsoundHere := hsound.of_locate hlocate
  obtain ⟨other, around', es'', content, hdescend, hchild, hother, hlocateHere⟩ :=
    exists_of_mem_packages hsound hfree hlocate hP hd hlength
  have hotherBelow := below?_of_descend? hdescend
  obtain rfl : other = names := Path.joinAll_components_inj root
    (fun n hn => (hsoundHere.names_of_below? hotherBelow n hn).bare)
    (fun n hn => (hsoundHere.names_of_below? hbelow n hn).bare)
    (hother.symm.trans hcomponents)
  obtain rfl : es'' = es' := by simpa using hotherBelow.symm.trans hbelow
  exact ⟨⟨around', hlocateHere⟩, content, hchild⟩

/-- The references that a package collects are its own fields. -/
theorem encard_ownFields (hsound : tree.IsSound) (hfree : tree.IsLinkFree)
    (hlocate : tree.locate root = .ok (.directory (es :: around)))
    (hP : directories tree root marker = .ok P) {d : Path} (hd : d ∈ P)
    (hlength : d.spelling.utf8Length < tooLongPath) (name : Text) :
    (ownFields marker root (.directory es) name d).encard =
      (collect tree d marker).count name := by
  have hsoundHere := hsound.of_locate hlocate
  obtain ⟨names, around', es', content, hdescend, hchild, hcomponents, hlocateHere⟩ :=
    exists_of_mem_packages hsound hfree hlocate hP hd hlength
  have hbelow := below?_of_descend? hdescend
  have hsoundBelow : (FileTree.directory es').IsSound := allNodes_below? hsoundHere hbelow
  have himage : ownFields marker root (.directory es) name d =
      (fun site : List Text × Nat => (names ++ site.1, site.2)) ''
        fieldsIn (packageFiles marker (.directory es')) {name} := by
    ext site
    constructor
    · rintro ⟨front, rest, es'', hfront, hsame, hsplit, hfields⟩
      obtain rfl : front = names := Path.joinAll_components_inj root
        (fun n hn => (hsoundHere.names_of_below? hfront n hn).bare)
        (fun n hn => (hsoundHere.names_of_below? hbelow n hn).bare)
        (hsame.symm.trans hcomponents)
      obtain rfl : es'' = es' := by simpa using hfront.symm.trans hbelow
      exact ⟨(rest, site.2), hfields, Prod.ext hsplit.symm rfl⟩
    · rintro ⟨⟨rest, line⟩, hfields, rfl⟩
      exact ⟨names, rest, es', hbelow, hcomponents, rfl, hfields⟩
  have hinjective : Function.Injective
      fun site : List Text × Nat => (names ++ site.1, site.2) := by
    rintro ⟨a, i⟩ ⟨b, j⟩ hab
    obtain ⟨hnames, rfl⟩ := Prod.mk.inj hab
    obtain rfl : a = b := List.append_cancel_left hnames
    rfl
  rw [himage, hinjective.encard_image, count_collect hsound hfree
    (hsoundBelow.isEntryName (t := .directory es') hchild).bare hlocateHere]

/-- Two packages have no field in common: the walk of the outer one does not
enter the inner one. -/
theorem ownFields_disjoint (hsound : tree.IsSound) (hfree : tree.IsLinkFree)
    (hlocate : tree.locate root = .ok (.directory (es :: around)))
    (hP : directories tree root marker = .ok P)
    (hlength : ∀ d ∈ P, d.spelling.utf8Length < tooLongPath) {a b : Path} (ha : a ∈ P)
    (hb : b ∈ P) (hne : a.components ≠ b.components) (name : Text) :
    Disjoint (ownFields marker root (.directory es) name a)
      (ownFields marker root (.directory es) name b) := by
  -- the package further in, seen from the one further out, is on the way to the file
  have hnested : ∀ {c d : Path} {front more rest : List Text} {es₁ es₂ : Entries},
      d ∈ P → c.components ≠ d.components →
      c.components = (root.joinAll front).components →
      d.components = (root.joinAll (front ++ more)).components →
      (FileTree.directory es).below? front = some (.directory es₁) →
      (FileTree.directory es).below? (front ++ more) = some (.directory es₂) →
      ¬IsUnnested marker (.directory es₁) (more ++ rest) := by
    intro c d front more rest es₁ es₂ hd hcd hc hdc hfront hmore hunnested
    obtain ⟨-, content, hchild⟩ := exists_marker_of_mem_packages hsound hfree hlocate hP hd
      (hlength d hd) hmore hdc
    have hmoreNe : more ≠ [] := by
      rintro rfl
      exact hcd (by rw [hc, hdc, List.append_nil])
    rw [below?_append, hfront] at hmore
    exact hunnested more hmoreNe (List.prefix_append more rest) content
      (below?_concat_iff.2 ⟨es₂, hmore, hchild⟩)
  rw [Set.disjoint_left]
  rintro site ⟨front₁, rest₁, es₁, hbelow₁, hc₁, hsplit₁, -, -, -, ⟨-, hunnested₁⟩, -⟩
    ⟨front₂, rest₂, es₂, hbelow₂, hc₂, hsplit₂, -, -, -, ⟨-, hunnested₂⟩, -⟩
  rcases List.append_eq_append_iff.1 (hsplit₁.symm.trans hsplit₂) with
    ⟨more, rfl, rfl⟩ | ⟨more, rfl, rfl⟩
  · exact hnested hb hne hc₁ hc₂ hbelow₁ hbelow₂ hunnested₁
  · exact hnested ha hne.symm hc₂ hc₁ hbelow₂ hbelow₁ hunnested₂

/-- If no package directory lies on the way from a package to a file, then none
holds a marker there. -/
theorem isUnnested_of_nearest (hsound : tree.IsSound)
    (hlocate : tree.locate root = .ok (.directory (es :: around)))
    (hP : directories tree root marker = .ok P) {near inner : List Text} {es' : Entries}
    (hnear : (FileTree.directory es).below? near = some (.directory es')) {content : ByteArray}
    (hfile : (FileTree.directory es').below? inner = some (.file content))
    (hnearest : ∀ more, more ≠ [] → more <+: inner → more ≠ inner →
      ¬∃ d ∈ P, d.components = (root.joinAll (near ++ more)).components) :
    IsUnnested marker (.directory es') inner := by
  intro more hmore hbegins found hmarked
  obtain ⟨nested, hnested, hchild⟩ := below?_concat_iff.1 hmarked
  have hproper : more ≠ inner := by
    rintro rfl
    simp [hnested] at hfile
  refine hnearest more hmore hbegins hproper ?_
  obtain ⟨around', hdescend⟩ := exists_descend? around
    ((below?_append_iff hmore).2 ⟨es', hnear, hnested⟩)
  obtain ⟨P', hP', hfound⟩ := Package.exists_mem_directories hsound hlocate hdescend
    ⟨_, hchild, rfl⟩
  obtain rfl := Except.ok.inj (hP'.symm.trans hP)
  exact hfound

/-- A field has a package around it exactly when it is some package's own. -/
theorem mem_enclosed_iff (hsound : tree.IsSound)
    (hlocate : tree.locate root = .ok (.directory (es :: around)))
    (hP : directories tree root marker = .ok P) {name : Text} {site : List Text × Nat} :
    site ∈ fieldsIn (enclosedFiles marker root P (.directory es)) {name} ↔
      ∃ d ∈ P, site ∈ ownFields marker root (.directory es) name d := by
  constructor
  · rintro ⟨text, line, name, ⟨⟨node, hnode, htext⟩, front, rest, hnames, hne, henclosing⟩,
      hline, hread, rfl⟩
    obtain ⟨near, inner, hsplit, hinner, ⟨d, hd, hcomponents⟩, hnearest⟩ := exists_nearest
      (p := fun q => ∃ d ∈ P, d.components = (root.joinAll q).components) henclosing hne
    rw [hnames, hsplit] at hnode htext
    obtain ⟨es', hnear, hbelow⟩ := (below?_append_iff hinner).1 hnode
    replace htext := (isResourceText_append_iff hinner).1 htext
    have hunnested : IsUnnested marker (.directory es') inner := by
      obtain ⟨content, -, rfl, -⟩ := id htext
      exact isUnnested_of_nearest hsound hlocate hP hnear hbelow hnearest
    exact ⟨d, hd, near, inner, es', hnear, hcomponents, hnames.trans hsplit, text, line, name,
      ⟨⟨node, hbelow, htext⟩, hunnested⟩, hline, hread, rfl⟩
  · rintro ⟨d, hd, front, rest, es', hfront, hcomponents, hsplit, text, line, name,
      ⟨⟨node, hbelow, htext⟩, -⟩, hline, hread, rfl⟩
    have hne := htext.names_ne_nil
    refine ⟨text, line, name, ⟨⟨node, ?_, ?_⟩, front, rest, hsplit, hne, d, hd, hcomponents⟩,
      hline, hread, rfl⟩
    · rw [hsplit]
      exact (below?_append_iff hne).2 ⟨es', hfront, hbelow⟩
    · rw [hsplit]
      exact (isResourceText_append_iff hne).2 htext

end Below

/-- In a tree without links the counts of all packages that are found add up to
the number of fields with a package around them.  Each of these fields belongs to
one of the packages only, and each package counts those that belong to it.

The paths of the packages are short enough to be opened, as they were when the
packages were found. -/
theorem sum_count_collect {tree : FileTree} (hsound : tree.IsSound) (hfree : tree.IsLinkFree)
    {root : Path} {marker : Text} {P : List Path} (hP : directories tree root marker = .ok P)
    (hlength : ∀ d ∈ P, d.spelling.utf8Length < tooLongPath) (name : Text) :
    ∃ es around, tree.locate root = .ok (.directory (es :: around)) ∧
      let fields := fieldsIn (enclosedFiles marker root P (.directory es)) {name}
      let own := ownFields marker root (.directory es) name
      (((P.map fun d => (collect tree d marker).count name).sum : ℕ) : ℕ∞) = fields.encard ∧
        (∀ d ∈ P, ((collect tree d marker).count name : ℕ∞) = (own d).encard) ∧
        ∀ site ∈ fields, ∃! d, d ∈ P ∧ site ∈ own d := by
  obtain ⟨es, around, hlocate⟩ := Package.exists_locate_of_directories hsound hP
  refine ⟨es, around, hlocate, ?_⟩
  intro fields own
  have hown : ∀ d ∈ P, (own d).encard = (collect tree d marker).count name := fun d hd =>
    encard_ownFields hsound hfree hlocate hP hd (hlength d hd) name
  have hnodup := Package.directories_nodup hP
  have hdisjoint : ∀ a ∈ P, ∀ b ∈ P, a.components ≠ b.components → Disjoint (own a) (own b) :=
    fun a ha b hb hne => ownFields_disjoint hsound hfree hlocate hP hlength ha hb hne name
  have hpairwise : P.Pairwise fun a b => Disjoint (own a) (own b) :=
    (List.pairwise_map.1 hnodup).imp_of_mem fun ha hb hne => hdisjoint _ ha _ hb hne
  have hunion : fields = {site | ∃ d ∈ P, site ∈ own d} := by
    ext site
    exact mem_enclosed_iff hsound hlocate hP
  refine ⟨?_, fun d hd => (hown d hd).symm, ?_⟩
  · rw [hunion, encard_exists_mem P own hpairwise, List.map_congr_left hown, Nat.cast_list_sum,
      List.map_map]
    rfl
  · intro site hsite
    rw [hunion] at hsite
    obtain ⟨d, hd, hsite⟩ := hsite
    refine ⟨d, ⟨hd, hsite⟩, ?_⟩
    rintro other ⟨hother, hotherSite⟩
    by_contra hne
    have hcomponents : other.components ≠ d.components := fun hsame =>
      hne (List.inj_on_of_nodup_map hnodup hother hd hsame)
    exact Set.disjoint_left.1 (hdisjoint other hother d hd hcomponents) hotherSite hsite

/-- A resource file with one field, which refers to `image`. -/
def imageField : FileTree :=
  ofText "image: nginx # \x7b\"$openapi\":\"image\"\x7d\n".toList

/-- A package with another one below a plain directory, with a field in each of
the three directories. -/
def stackedTree : FileTree :=
  .directory [("Krmfile".toList, ofText []), ("a.yaml".toList, imageField),
    ("plain".toList, .directory [("b.yaml".toList, imageField),
      ("inner".toList, .directory
        [("Krmfile".toList, ofText []), ("c.yaml".toList, imageField)])])]

/-- The general statement at this tree: all three fields are in a package. -/
theorem sum_count_collect_stacked :
    ∃ es around, stackedTree.locate ⟨['.']⟩ = .ok (.directory (es :: around)) ∧
      (fieldsIn (enclosedFiles "Krmfile".toList ⟨['.']⟩
        [⟨['.']⟩, ⟨"./plain/inner".toList⟩] (.directory es)) {"image".toList}).encard = 3 := by
  have hP : directories stackedTree ⟨['.']⟩ "Krmfile".toList =
      .ok [⟨['.']⟩, ⟨"./plain/inner".toList⟩] := by
    decide +kernel
  obtain ⟨es, around, hlocate, hsum, -⟩ := sum_count_collect (by decide +kernel)
    (by decide +kernel) hP (by decide +kernel) "image".toList
  have hthree : ([⟨['.']⟩, ⟨"./plain/inner".toList⟩].map fun d : Path =>
      (collect stackedTree d "Krmfile".toList).count "image".toList).sum = 3 := by
    decide +kernel
  refine ⟨es, around, hlocate, ?_⟩
  rw [← hsum, hthree]
  rfl

end SetterReport.Usage
