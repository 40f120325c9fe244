import Mathlib
import SetterReport.Proofs.Resolution
import SetterReport.Proofs.WalkSpots
import SetterReport.Usage

/-!
# The fields of a package

A field is a line of a resource file that refers to a name; it is told by the
names that lead to the file and by the number of the line.  `packageFiles` says
which files belong to the package in a directory: the resource files below it
that no nested directory with a marker file of its own holds.

## Main result

* `count_collect` — in a tree without links, the number of references to a name
  that the walk collects is the number of fields of the package that refer to
  it.
-/

namespace SetterReport.Usage

open FileTree
open SetterReport.Path (IsBare)

/-! ## Fields -/

/-- The fields of some files that refer to one of the wanted names.  `files`
relates the names that lead to a file to its text. -/
def fieldsIn (files : List Text → Text → Prop) (wanted : Set Text) :
    Set (List Text × Nat) :=
  {site | ∃ text line name, files site.1 text ∧ (Text.lines text)[site.2]? = some line ∧
    FieldReference.read line = some name ∧ name ∈ wanted}

/-- A node with these names is a resource file with this text. -/
def IsResourceText (marker : Text) (names : List Text) (node : FileTree) (text : Text) : Prop :=
  ∃ content name, node = .file content ∧ decode content = .ok text ∧
    names.getLast? = some name ∧ name ≠ marker ∧
    (Path.extensionOf name).any extensions.contains = true

/-- Names lead from a directory to a resource file with this text. -/
def IsResourceFile (marker : Text) (t : FileTree) (names : List Text) (text : Text) : Prop :=
  ∃ node, t.below? names = some node ∧ IsResourceText marker names node text

/-- No directory on the way along the names, except for the start, directly
holds a file named like the marker. -/
def IsUnnested (marker : Text) (t : FileTree) (names : List Text) : Prop :=
  ∀ front, front ≠ [] → front <+: names →
    ∀ content, t.below? (front ++ [marker]) ≠ some (.file content)

/-- The files of the package in a directory, with their texts. -/
def packageFiles (marker : Text) (t : FileTree) (names : List Text) (text : Text) : Prop :=
  IsResourceFile marker t names text ∧ IsUnnested marker t names

theorem IsResourceText.unique {marker : Text} {names : List Text} {node : FileTree}
    {a b : Text} (ha : IsResourceText marker names node a)
    (hb : IsResourceText marker names node b) : a = b := by
  obtain ⟨content, -, rfl, hdecode, -⟩ := ha
  obtain ⟨content', -, hnode, hdecode', -⟩ := hb
  obtain rfl : content = content' := by simpa using hnode
  rw [hdecode] at hdecode'
  exact Except.ok.inj hdecode'

theorem IsResourceText.names_ne_nil {marker : Text} {names : List Text} {node : FileTree}
    {text : Text} (h : IsResourceText marker names node text) : names ≠ [] := by
  obtain ⟨content, name, -, -, hlast, -⟩ := h
  rintro rfl
  simp at hlast

/-- Only the last name matters, not the way to it. -/
theorem isResourceText_append_iff {marker : Text} {front rest : List Text} (hne : rest ≠ [])
    {node : FileTree} {text : Text} :
    IsResourceText marker (front ++ rest) node text ↔ IsResourceText marker rest node text := by
  unfold IsResourceText
  rw [List.getLast?_append_of_ne_nil _ hne]

theorem fieldsIn_union (files : List Text → Text → Prop) (a b : Set Text) :
    fieldsIn files (a ∪ b) = fieldsIn files a ∪ fieldsIn files b := by
  ext site
  constructor
  · rintro ⟨text, line, name, hfile, hline, hread, hname | hname⟩
    · exact Or.inl ⟨text, line, name, hfile, hline, hread, hname⟩
    · exact Or.inr ⟨text, line, name, hfile, hline, hread, hname⟩
  · rintro (⟨text, line, name, hfile, hline, hread, hname⟩ |
      ⟨text, line, name, hfile, hline, hread, hname⟩)
    · exact ⟨text, line, name, hfile, hline, hread, Or.inl hname⟩
    · exact ⟨text, line, name, hfile, hline, hread, Or.inr hname⟩

/-- A field refers to one name only. -/
theorem fieldsIn_disjoint {files : List Text → Text → Prop}
    (hfiles : ∀ names a b, files names a → files names b → a = b) {a b : Set Text}
    (h : Disjoint a b) : Disjoint (fieldsIn files a) (fieldsIn files b) := by
  rw [Set.disjoint_left]
  rintro site ⟨text, line, name, hfile, hline, hread, hname⟩
    ⟨text', line', name', hfile', hline', hread', hname'⟩
  obtain rfl := hfiles _ _ _ hfile hfile'
  rw [hline] at hline'
  obtain rfl := Option.some.inj hline'
  rw [hread] at hread'
  obtain rfl := Option.some.inj hread'
  exact Set.disjoint_left.1 h hname hname'

theorem packageFiles_unique {marker : Text} {t : FileTree} (names : List Text) (a b : Text)
    (ha : packageFiles marker t names a) (hb : packageFiles marker t names b) : a = b := by
  obtain ⟨⟨node, hnode, ha⟩, -⟩ := ha
  obtain ⟨⟨node', hnode', hb⟩, -⟩ := hb
  rw [hnode] at hnode'
  obtain rfl := Option.some.inj hnode'
  exact ha.unique hb

/-! ## Counting over lists -/

/-- The size of a union of disjoint sets, one for each member of a list. -/
theorem encard_exists_mem {ι α : Type} (members : List ι) (S : ι → Set α)
    (h : members.Pairwise fun a b => Disjoint (S a) (S b)) :
    {x | ∃ i ∈ members, x ∈ S i}.encard = (members.map fun i => (S i).encard).sum := by
  induction members with
  | nil => simp
  | cons i rest ih =>
      obtain ⟨hi, hrest⟩ := List.pairwise_cons.1 h
      have hsplit : {x | ∃ j ∈ i :: rest, x ∈ S j} = S i ∪ {x | ∃ j ∈ rest, x ∈ S j} := by
        ext x
        simp
      have hdisjoint : Disjoint (S i) {x | ∃ j ∈ rest, x ∈ S j} := by
        rw [Set.disjoint_left]
        rintro x hx ⟨j, hj, hxj⟩
        exact Set.disjoint_left.1 (hi j hj) hx hxj
      rw [hsplit, Set.encard_union_eq hdisjoint, ih hrest, List.map_cons, List.sum_cons]

/-- The number of positions in a list whose member satisfies `p`. -/
theorem encard_positions {α : Type} (p : α → Bool) (xs : List α) :
    {i : Nat | ∃ x, xs[i]? = some x ∧ p x = true}.encard = xs.countP p := by
  induction xs with
  | nil => simp
  | cons x rest ih =>
      let later := {i : Nat | ∃ y, rest[i]? = some y ∧ p y = true}
      have hshift : (Nat.succ '' later).encard = rest.countP p := by
        rw [Nat.succ_injective.encard_image]
        exact ih
      cases hx : p x with
      | true =>
          have hsplit : {i : Nat | ∃ y, (x :: rest)[i]? = some y ∧ p y = true} =
              insert 0 (Nat.succ '' later) := by
            ext i
            cases i with
            | zero => simp [hx]
            | succ i => simp [later]
          rw [hsplit, Set.encard_insert_of_notMem (by simp), hshift,
            List.countP_cons_of_pos hx]
          push_cast
          rfl
      | false =>
          have hsplit : {i : Nat | ∃ y, (x :: rest)[i]? = some y ∧ p y = true} =
              Nat.succ '' later := by
            ext i
            cases i with
            | zero => simp [hx]
            | succ i => simp [later]
          rw [hsplit, hshift, List.countP_cons_of_neg (by simp [hx])]

/-- The lines of one text that refer to a name, at a fixed place. -/
theorem encard_lines (names : List Text) (text name : Text) :
    {site : List Text × Nat | site.1 = names ∧ ∃ line,
      (Text.lines text)[site.2]? = some line ∧
      FieldReference.read line = some name}.encard = (namesIn text).count name := by
  have himage : {site : List Text × Nat | site.1 = names ∧ ∃ line,
      (Text.lines text)[site.2]? = some line ∧ FieldReference.read line = some name} =
      Prod.mk names '' {i : Nat | ∃ line, (Text.lines text)[i]? = some line ∧
        (FieldReference.read line == some name) = true} := by
    ext ⟨names', i⟩
    constructor
    · rintro ⟨rfl, line, hline, hread⟩
      exact ⟨i, ⟨line, hline, beq_iff_eq.2 hread⟩, rfl⟩
    · rintro ⟨j, ⟨line, hline, hread⟩, hsite⟩
      obtain ⟨rfl, rfl⟩ := Prod.mk.injEq .. ▸ hsite
      exact ⟨rfl, line, hline, beq_iff_eq.1 hread⟩
  rw [himage, (Prod.mk_right_injective names).encard_image, encard_positions]
  unfold namesIn
  rw [List.count_filterMap]

/-! ## Counting on a walk -/

/-- In a tree without links a directory holds a marker exactly when an entry of
that name is a file. -/
theorem holdsMarker_iff {marker : Text} (hmarker : IsBare marker) (around : Trail)
    {es : Entries} (hsound : (directory es).IsSound) (hfree : (directory es).IsLinkFree) :
    holdsMarker marker (es :: around) = true ↔
      ∃ content, child? marker es = some (.file content) := by
  unfold holdsMarker
  rw [isFileFrom_iff around hmarker hsound]
  constructor
  · rintro (hfile | ⟨target, -, hlink, -⟩)
    · exact hfile
    · exact absurd (allNodes_child (t := directory es) hfree hlink)
        (by simp [allNodes, isNoLink])
  · exact Or.inl

/-- A walk for a package stays out of exactly the nested packages. -/
theorem isOpenTo_holdsMarker_iff {marker : Text} (hmarker : IsBare marker) (around : Trail)
    {t : FileTree} (hsound : t.IsSound) (hfree : t.IsLinkFree) (names : List Text) :
    IsOpenTo (holdsMarker marker) around t names ↔ IsUnnested marker t names := by
  constructor
  · intro hopen front hne hfront content hfile
    obtain ⟨es, hnode, hchild⟩ := below?_concat_iff.1 hfile
    obtain ⟨around', hdescend⟩ := exists_descend? around hnode
    have hclosed := hopen front hne hfront around' es hdescend
    have hholds := (holdsMarker_iff hmarker around' (allNodes_below? hsound hnode)
      (allNodes_below? hfree hnode)).2 ⟨content, hchild⟩
    simp [hclosed] at hholds
  · intro hunnested front hne hfront around' es hdescend
    have hnode := below?_of_descend? hdescend
    rw [← Bool.not_eq_true, holdsMarker_iff hmarker around' (allNodes_below? hsound hnode)
      (allNodes_below? hfree hnode)]
    rintro ⟨content, hchild⟩
    exact hunnested front hne hfront content (below?_concat_iff.2 ⟨es, hnode, hchild⟩)

/-- The fields of one spot that refer to a name. -/
def spotFields (marker name : Text) (s : Spot) : Set (List Text × Nat) :=
  fieldsIn (fun names text => names = s.names ∧ IsResourceText marker names s.node text) {name}

theorem mem_spotFields {marker name : Text} {s : Spot} {site : List Text × Nat} :
    site ∈ spotFields marker name s ↔ site.1 = s.names ∧ ∃ text line,
      IsResourceText marker s.names s.node text ∧
      (Text.lines text)[site.2]? = some line ∧ FieldReference.read line = some name := by
  constructor
  · rintro ⟨text, line, _, ⟨hnames, htext⟩, hline, hread, rfl⟩
    exact ⟨hnames, text, line, hnames ▸ htext, hline, hread⟩
  · rintro ⟨hnames, text, line, htext, hline, hread⟩
    exact ⟨text, line, name, ⟨hnames, hnames ▸ htext⟩, hline, hread, rfl⟩

/-- The visited things with bytes to read. -/
theorem resourceContent?_eq_some_iff {marker : Text} {v : Visit} {content : ByteArray} :
    resourceContent? marker v = some content ↔ v.place = .ok (.file content) ∧
      v.path.fileName? ≠ some marker ∧ v.path.extension?.any extensions.contains = true := by
  unfold resourceContent?
  split
  · rename_i found hplace
    rw [hplace]
    by_cases hname : v.path.fileName? = some marker
    · simp [hname]
    · by_cases hextension : v.path.extension?.any extensions.contains = true
      · simp [hname, hextension]
      · simp [hname, hextension]
  · rename_i hplace
    simp only [reduceCtorEq, false_iff, not_and]
    exact fun hfile => absurd hfile (hplace content)

/-- The file name of a spot is its last name. -/
theorem fileName?_visit (root : Path) {s : Spot} (hbare : ∀ n ∈ s.names, IsBare n) {name : Text}
    (hlast : s.names.getLast? = some name) : (s.visit root).path.fileName? = some name := by
  obtain ⟨front, hnames⟩ := List.getLast?_eq_some_iff.1 hlast
  show (root.joinAll s.names).fileName? = _
  rw [hnames, Path.joinAll_concat]
  exact Path.fileName?_join _ (hbare name (by simp [hnames]))

/-- A spot with bytes to read that are a text is a resource file with that text. -/
theorem isResourceText_iff {marker : Text} {root : Path} {s : Spot}
    (hbare : ∀ n ∈ s.names, IsBare n) (hnil : s.names = [] → s.node.isDirectory = true)
    (hfree : s.node.IsLinkFree) {text : Text} :
    IsResourceText marker s.names s.node text ↔
      ∃ content, resourceContent? marker (s.visit root) = some content ∧
        decode content = .ok text := by
  constructor
  · rintro ⟨content, name, hnode, hdecode, hlast, hne, hextension⟩
    have hname := fileName?_visit root hbare hlast
    refine ⟨content, resourceContent?_eq_some_iff.2 ⟨?_, ?_, ?_⟩, hdecode⟩
    · unfold Visit.place Spot.visit
      rw [hnode]
    · rw [hname]
      simpa using hne
    · simpa [Path.extension?, hname] using hextension
  · rintro ⟨content, hcontent, hdecode⟩
    obtain ⟨hplace, hne, hextension⟩ := resourceContent?_eq_some_iff.1 hcontent
    have hnode : s.node = .file content := by
      unfold Visit.place Spot.visit at hplace
      cases hnode : s.node with
      | directory es => simp [hnode] at hplace
      | file found => simpa [hnode] using hplace
      | link target =>
          rw [hnode] at hfree
          exact absurd hfree (by simp [IsLinkFree, allNodes, isNoLink])
    have hnames : s.names ≠ [] := fun hempty => by
      simpa [hnode, isDirectory] using hnil hempty
    have hlast := List.getLast?_eq_some_getLast hnames
    have hname := fileName?_visit root hbare hlast
    refine ⟨content, _, hnode, hdecode, hlast, ?_, ?_⟩
    · rw [hname] at hne
      simpa using hne
    · simpa [Path.extension?, hname] using hextension

/-- A spot contributes its fields. -/
theorem encard_spotFields {marker : Text} {root : Path} {s : Spot}
    (hbare : ∀ n ∈ s.names, IsBare n) (hnil : s.names = [] → s.node.isDirectory = true)
    (hfree : s.node.IsLinkFree) (name : Text) :
    (spotFields marker name s).encard = (referencesOf marker (s.visit root)).count name := by
  have htext : ∀ text, IsResourceText marker s.names s.node text ↔
      ∃ content, resourceContent? marker (s.visit root) = some content ∧
        decode content = .ok text := fun text => isResourceText_iff hbare hnil hfree
  have hempty : (∀ text, ¬IsResourceText marker s.names s.node text) →
      spotFields marker name s = ∅ := by
    intro hnone
    rw [Set.eq_empty_iff_forall_notMem]
    intro site hsite
    obtain ⟨-, text, -, htext, -⟩ := mem_spotFields.1 hsite
    exact hnone text htext
  unfold referencesOf
  cases hcontent : resourceContent? marker (s.visit root) with
  | none =>
      rw [hempty fun text h => by simpa [hcontent] using (htext text).1 h]
      simp [References.count]
  | some content =>
      cases hdecode : decode content with
      | error fault =>
          rw [hempty fun text h => by simpa [hcontent, hdecode] using (htext text).1 h]
          simp only [hdecode, References.count, List.count_nil, Set.encard_empty, Nat.cast_zero]
      | ok text =>
          have hlines : spotFields marker name s = {site | site.1 = s.names ∧ ∃ line,
              (Text.lines text)[site.2]? = some line ∧
              FieldReference.read line = some name} := by
            ext site
            rw [mem_spotFields]
            constructor
            · rintro ⟨hnames, other, line, hother, hline, hread⟩
              obtain rfl := hother.unique ((htext text).2 ⟨content, hcontent, hdecode⟩)
              exact ⟨hnames, line, hline, hread⟩
            · rintro ⟨hnames, line, hline, hread⟩
              exact ⟨hnames, text, line, (htext text).2 ⟨content, hcontent, hdecode⟩,
                hline, hread⟩
          rw [hlines, encard_lines]
          simp only [hdecode, References.count]

/-- The references of several visits are counted visit by visit. -/
theorem count_foldr_append (f : Visit → References) (vs : List Visit) (name : Text) :
    (vs.foldr (fun v found => f v ++ found) {}).count name =
      (vs.map fun v => (f v).count name).sum := by
  induction vs with
  | nil => rfl
  | cons v rest ih =>
      rw [List.map_cons, List.sum_cons, ← ih]
      exact List.count_append

/-- What a package's walk collects for a name is the number of its fields that
refer to that name. -/
theorem count_collect {tree : FileTree} (hsound : tree.IsSound) (hfree : tree.IsLinkFree)
    {directory : Path} {marker : Text} (hmarker : IsBare marker) {es : Entries}
    {around : Trail} (hlocate : tree.locate directory = .ok (.directory (es :: around)))
    (name : Text) :
    ((collect tree directory marker).count name : ℕ∞) =
      (fieldsIn (packageFiles marker (.directory es)) {name}).encard := by
  have hsoundHere := hsound.of_locate hlocate
  have hfreeHere := hfree.of_locate hlocate
  let spots := spotsAt (holdsMarker marker) around (.directory es)
  have hcollect : collect tree directory marker =
      (spots.map (Spot.visit directory)).foldr
        (fun v found => referencesOf marker v ++ found) {} := by
    have hfollow : follow false [tree.entries] directory.spelling =
        .ok (.directory (es :: around)) := hfree.follow_of_locate hlocate
    unfold collect visits
    simp only [hfollow, List.tail_cons, List.headD_cons, visitsAt_eq]
    rfl
  have hspot : ∀ s ∈ spots, (spotFields marker name s).encard =
      (referencesOf marker (s.visit directory)).count name := by
    intro s hs
    obtain ⟨hdescend, -⟩ := (mem_spotsAt hsoundHere).1 hs
    have hnode := below?_of_descend? hdescend
    refine encard_spotFields ?_ ?_ (allNodes_below? hfreeHere hnode) name
    · exact isBare_of_mem_spotsAt hsoundHere hs
    · intro hnil
      rw [hnil] at hnode
      rw [← (Option.some.inj hnode : FileTree.directory es = s.node)]
      rfl
  have hdisjoint : spots.Pairwise fun a b =>
      Disjoint (spotFields marker name a) (spotFields marker name b) := by
    refine (List.pairwise_map.1 (nodup_spotsAt _ around hsoundHere)).imp ?_
    intro a b hab
    rw [Set.disjoint_left]
    intro site ha hb
    exact hab ((mem_spotFields.1 ha).1.symm.trans (mem_spotFields.1 hb).1)
  have hunion : fieldsIn (packageFiles marker (.directory es)) {name} =
      {site | ∃ s ∈ spots, site ∈ spotFields marker name s} := by
    ext site
    constructor
    · rintro ⟨text, line, _, ⟨⟨node, hnode, htext⟩, hunnested⟩, hline, hread, rfl⟩
      obtain ⟨around', hdescend⟩ := exists_descend? around hnode
      have hopen := (isOpenTo_holdsMarker_iff hmarker around hsoundHere hfreeHere
        site.1).2 hunnested
      exact ⟨⟨site.1, _, around'⟩, (mem_spotsAt hsoundHere).2 ⟨hdescend, hopen⟩,
        mem_spotFields.2 ⟨rfl, text, line, htext, hline, hread⟩⟩
    · rintro ⟨s, hs, hsite⟩
      obtain ⟨hdescend, hopen⟩ := (mem_spotsAt hsoundHere).1 hs
      obtain ⟨hnames, text, line, htext, hline, hread⟩ := mem_spotFields.1 hsite
      have hunnested := (isOpenTo_holdsMarker_iff hmarker around hsoundHere hfreeHere
        s.names).1 hopen
      exact ⟨text, line, name,
        hnames ▸ ⟨⟨s.node, below?_of_descend? hdescend, htext⟩, hunnested⟩, hline, hread, rfl⟩
  rw [hcollect, count_foldr_append, hunion, encard_exists_mem _ _ hdisjoint, List.map_map,
    List.map_congr_left hspot]
  rw [Nat.cast_list_sum, List.map_map]
  rfl

end SetterReport.Usage
