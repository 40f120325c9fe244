import Mathlib.Data.List.Flatten
import SetterReport.Proofs.OrderedTree
import SetterReport.Proofs.WalkSpots
import SetterReport.Report

/-!
# Reports and the order of listings

The order in which a directory lists its entries has no part in what is found or reported.
A walk through the ordered tree meets the same things in the same order
(`visitsAt_ordered`), each of them ordered, and nothing that is made of a visit can tell the
difference.  So the markers, the references and the whole report of a tree are those of the
ordered tree (`markerFiles_ordered`, `collect_ordered`, `run_ordered`), and two trees with
one order have the same.

## Main result

* `run_eq_of_rearranged` — the searches and the reports on two rearranged trees are equal.
-/

namespace SetterReport.FileTree

/-! ## Visits -/

namespace Visit

/-- The visit on a walk through the ordered tree. -/
def ordered (v : Visit) : Visit :=
  ⟨v.path, v.node.ordered, orderedTrail v.around⟩

/-- A visited link stands in directories that are sound. -/
def IsSound (v : Visit) : Prop :=
  ∀ target, v.node = .link target → IsTrail hasProperEntries v.around

theorem isSound_file (path : Path) (content : ByteArray) (around : Trail) :
    IsSound ⟨path, .file content, around⟩ := by
  intro target hlink
  cases hlink

theorem isSound_directory (path : Path) (es : Entries) (around : Trail) :
    IsSound ⟨path, .directory es, around⟩ := by
  intro target hlink
  cases hlink

theorem isSound_link (path : Path) (target : Text) {around : Trail}
    (h : IsTrail hasProperEntries around) : IsSound ⟨path, .link target, around⟩ :=
  fun _ _ => h

theorem place_ordered {v : Visit} (h : v.IsSound) :
    v.ordered.place = v.place.map Place.ordered := by
  obtain ⟨path, node, around⟩ := v
  cases node with
  | file content => rfl
  | directory es => rfl
  | link target => exact behind_ordered (h target rfl) target

end Visit

/-- What a walk meets at and below one entry of a directory. -/
def visitsOf (closed : Trail → Bool) (path : Path) (around : Trail) (e : Text × FileTree) :
    List Visit :=
  if e.2.isDirectory && closed (e.2.entries :: around) then []
  else visitsAt closed (path.join e.1) around e.2

/-- A walk goes through the entries in the order of their names. -/
theorem inNameOrder_visitsIn (closed : Trail → Bool) (path : Path) (around : Trail)
    (es : Entries) : inNameOrder (visitsIn closed path around es) =
      (Text.sortBy nameLe es).flatMap (visitsOf closed path around) := by
  have hkeep : ∀ a b : Text × FileTree,
      nameLe (a.1, visitsOf closed path around a) (b.1, visitsOf closed path around b) =
        nameLe a b := fun _ _ => rfl
  rw [visitsIn_eq]
  show inNameOrder (es.map fun e => (e.1, visitsOf closed path around e)) = _
  unfold inNameOrder
  rw [Text.sortBy_map (fun e => (e.1, visitsOf closed path around e)) hkeep, List.flatMap_map]

/-- A predicate that closes directories does not depend on the order of entries. -/
def IgnoresOrder (closed : Trail → Bool) : Prop :=
  ∀ trail, IsTrail hasProperEntries trail → closed (orderedTrail trail) = closed trail

/-- What a walk meets is sound, and a walk through the ordered tree meets the same in the
same order. -/
structure WalksAlike (met metOrdered : List Visit) : Prop where
  ordered : metOrdered = met.map Visit.ordered
  isSound : ∀ v ∈ met, v.IsSound

theorem WalksAlike.nil : WalksAlike [] [] :=
  ⟨rfl, by simp⟩

theorem WalksAlike.cons {v : Visit} (hv : v.IsSound) {met metOrdered : List Visit}
    (h : WalksAlike met metOrdered) : WalksAlike (v :: met) (v.ordered :: metOrdered) :=
  ⟨by rw [h.ordered, List.map_cons], List.forall_mem_cons.2 ⟨hv, h.isSound⟩⟩

theorem WalksAlike.flatMap {α : Type} {xs : List α} {f g : α → List Visit}
    (h : ∀ x ∈ xs, WalksAlike (f x) (g x)) : WalksAlike (xs.flatMap f) (xs.flatMap g) := by
  constructor
  · rw [List.map_flatMap]
    exact List.flatMap_congr fun x hx => (h x hx).ordered
  · intro v hv
    obtain ⟨x, hx, hv⟩ := List.mem_flatMap.1 hv
    exact (h x hx).isSound v hv

/-! ## Walks -/

section Walk

variable {closed : Trail → Bool} {around : Trail}

theorem IsTrail.cons {es : Entries} (hes : (directory es).IsSound)
    (h : IsTrail hasProperEntries around) : IsTrail hasProperEntries (es :: around) :=
  ⟨by simp, List.forall_mem_cons.2 ⟨hes, h.all⟩⟩

/-- One entry is closed in both trees or in none. -/
theorem visitsOf_ordered (hclosed : IgnoresOrder closed) {path : Path}
    (h : IsTrail hasProperEntries around) {e : Text × FileTree} (he : e.2.IsSound)
    (hvisits : WalksAlike (visitsAt closed (path.join e.1) around e.2)
      (visitsAt closed (path.join e.1) (orderedTrail around) e.2.ordered)) :
    WalksAlike (visitsOf closed path around e)
      (visitsOf closed path (orderedTrail around) (e.1, e.2.ordered)) := by
  have hsame : (e.2.ordered.isDirectory && closed (e.2.ordered.entries :: orderedTrail around)) =
      (e.2.isDirectory && closed (e.2.entries :: around)) := by
    obtain ⟨name, node⟩ := e
    cases node with
    | file content => rfl
    | link target => rfl
    | directory es =>
        rw [isDirectory_ordered, entries_ordered]
        exact congrArg _ (hclosed (es :: around) (h.cons he))
  unfold visitsOf
  simp only [hsame]
  split
  · exact WalksAlike.nil
  · exact hvisits

/-- Walks below a directory are alike, if those at and below each entry are. -/
theorem visitsIn_ordered (hclosed : IgnoresOrder closed) {path : Path}
    (h : IsTrail hasProperEntries around) {es : Entries} (hes : (directory es).IsSound)
    (hvisits : ∀ e ∈ es, WalksAlike (visitsAt closed (path.join e.1) around e.2)
      (visitsAt closed (path.join e.1) (orderedTrail around) e.2.ordered)) :
    WalksAlike (inNameOrder (visitsIn closed path around es))
      (inNameOrder (visitsIn closed path (orderedTrail around) (orderedEntries es))) := by
  have hdistinct : (es.map (·.1)).Nodup := hes.proper.1
  rw [inNameOrder_visitsIn, inNameOrder_visitsIn, sortBy_orderedEntries hdistinct,
    List.flatMap_map]
  apply WalksAlike.flatMap
  intro e he
  have hmem : e ∈ es := (Text.sortBy_perm nameLe es).mem_iff.1 he
  have hnode : e.2.IsSound := ((allNodes_directory _ es).1 hes).2 e hmem
  exact visitsOf_ordered hclosed h hnode (hvisits e hmem)

/-- A walk through the ordered tree meets the same things in the same order. -/
theorem visitsAt_ordered (hclosed : IgnoresOrder closed) (path : Path) {t : FileTree}
    (ht : t.IsSound) (h : IsTrail hasProperEntries around) :
    WalksAlike (visitsAt closed path around t)
      (visitsAt closed path (orderedTrail around) t.ordered) := by
  induction t using byEntries generalizing path around with
  | file content => exact WalksAlike.nil.cons (Visit.isSound_file path content around)
  | link target => exact WalksAlike.nil.cons (Visit.isSound_link path target h)
  | directory es ih =>
      rw [ordered_directory, visitsAt, visitsAt, ← ordered_directory]
      apply WalksAlike.cons (Visit.isSound_directory path es around)
      apply visitsIn_ordered hclosed (h.cons ht) ht
      intro e he
      exact ih e he (path.join e.1) (((allNodes_directory _ es).1 ht).2 e he) (h.cons ht)

/-- Walks below the innermost directory of a trail are alike. -/
theorem below_ordered (hclosed : IgnoresOrder closed) (path : Path) {trail : Trail}
    (h : IsTrail hasProperEntries trail) :
    WalksAlike (inNameOrder (visitsIn closed path trail (trail.headD [])))
      (inNameOrder (visitsIn closed path (orderedTrail trail)
        ((orderedTrail trail).headD []))) := by
  match trail, h with
  | [], h => exact absurd rfl h.ne_nil
  | es :: around, h =>
      have hes : (directory es).IsSound := h.all es (by simp)
      apply visitsIn_ordered hclosed h hes
      intro e he
      exact visitsAt_ordered hclosed (path.join e.1) (((allNodes_directory _ es).1 hes).2 e he) h

end Walk

/-- A walk through a tree and one through the ordered tree cannot start, for one reason, or
they are alike. -/
theorem visits_ordered {tree : FileTree} (h : tree.IsSound) {closed : Trail → Bool}
    (hclosed : IgnoresOrder closed) (root : Path) :
    (∃ fault, tree.visits closed root = .error fault ∧
      tree.ordered.visits closed root = .error fault) ∨
    ∃ met metOrdered, tree.visits closed root = .ok met ∧
      tree.ordered.visits closed root = .ok metOrdered ∧ WalksAlike met metOrdered := by
  have hstart := follow_top_ordered h false root.spelling
  have hbehind := follow_top_ordered h true root.spelling
  unfold visits
  rw [hstart.ordered, hbehind.ordered]
  cases hplace : follow false [tree.entries] root.spelling with
  | error fault => exact Or.inl ⟨fault, rfl, rfl⟩
  | ok place =>
      have hsound := hstart.isSound place hplace
      cases place with
      | file content =>
          refine Or.inr ⟨_, _, rfl, rfl, ?_⟩
          exact WalksAlike.nil.cons (Visit.isSound_file root content [])
      | directory trail =>
          refine Or.inr ⟨_, _, rfl, rfl, ?_⟩
          match trail, hsound with
          | [], hsound => exact absurd rfl hsound.ne_nil
          | es :: around, hsound =>
              have hfirst := Visit.isSound_directory root es around
              exact (below_ordered hclosed root hsound).cons hfirst
      | link around target =>
          -- the walk enters the link at its start only if that leads to a directory
          have hlink := Visit.isSound_link root target hsound
          cases htarget : follow true [tree.entries] root.spelling with
          | error fault => exact Or.inl ⟨fault, rfl, rfl⟩
          | ok behind =>
              refine Or.inr ?_
              cases behind with
              | file content => exact ⟨_, _, rfl, rfl, WalksAlike.nil.cons hlink⟩
              | link => exact ⟨_, _, rfl, rfl, WalksAlike.nil.cons hlink⟩
              | directory trail =>
                  have htrail : IsTrail hasProperEntries trail := hbehind.isSound _ htarget
                  exact ⟨_, _, rfl, rfl, (below_ordered hclosed root htrail).cons hlink⟩

end SetterReport.FileTree

namespace SetterReport.Package

open FileTree

/-! ## Markers -/

theorem markerFiles_ordered {tree : FileTree} (h : tree.IsSound) (root : Path) (marker : Text) :
    markerFiles tree.ordered root marker = markerFiles tree root marker := by
  have hsame : ∀ v, isMarker marker (Visit.ordered v) = isMarker marker v := by
    intro v
    unfold isMarker Visit.ordered
    rw [isDirectory_ordered]
    rfl
  have hclosed : IgnoresOrder fun _ => false := fun _ _ => rfl
  unfold markerFiles
  rw [locate_ordered h]
  cases tree.locate root with
  | error fault => rfl
  | ok place =>
      cases place with
      | file content => rfl
      | link around target => rfl
      | directory trail =>
          rcases visits_ordered h hclosed root with
            ⟨fault, hvisits, hordered⟩ | ⟨met, metOrdered, hvisits, hordered, halike⟩
          · simp only [Except.map, Place.ordered, hvisits, hordered]
          · simp only [Except.map, Place.ordered, hvisits, hordered, halike.ordered,
              List.filter_map, List.map_map, Function.comp_def, hsame]
            rfl

theorem directories_ordered {tree : FileTree} (h : tree.IsSound) (root : Path) (marker : Text) :
    directories tree.ordered root marker = directories tree root marker := by
  unfold directories
  rw [markerFiles_ordered h]

end SetterReport.Package

namespace SetterReport.Usage

open FileTree

/-! ## References -/

theorem referencesOf_ordered {marker : Text} {v : Visit} (h : v.IsSound) :
    referencesOf marker v.ordered = referencesOf marker v := by
  have hsame : resourceContent? marker v.ordered = resourceContent? marker v := by
    unfold resourceContent?
    rw [Visit.place_ordered h]
    cases v.place with
    | error fault => rfl
    | ok place => cases place <;> rfl
  unfold referencesOf
  rw [hsame]
  rfl

theorem collect_ordered {tree : FileTree} (h : tree.IsSound) (directory : Path) (marker : Text) :
    collect tree.ordered directory marker = collect tree directory marker := by
  have hclosed : IgnoresOrder (holdsMarker marker) :=
    fun _ htrail => isFileFrom_ordered htrail marker
  unfold collect
  rcases visits_ordered h hclosed directory with
    ⟨fault, hvisits, hordered⟩ | ⟨met, metOrdered, hvisits, hordered, halike⟩
  · rw [hvisits, hordered]
  · rw [hvisits, hordered, halike.ordered]
    show (met.map Visit.ordered).foldr _ _ = _
    rw [List.foldr_map]
    apply List.foldr_ext
    intro v hv found
    rw [referencesOf_ordered (halike.isSound v hv)]

end SetterReport.Usage

namespace SetterReport.Report

open FileTree

/-! ## The report -/

theorem extract_ordered {tree : FileTree} (h : tree.IsSound) (path : Path)
    (name : Option Text) :
    Extraction.extract tree.ordered path name = Extraction.extract tree path name := by
  unfold Extraction.extract Metadata.readFile
  rw [readText_ordered h]
  unfold Extraction.extractFrom
  simp only [Usage.collect_ordered h]

theorem block_ordered {tree : FileTree} (h : tree.IsSound) (o : Options) (directory : Path) :
    block tree.ordered o directory = block tree o directory := by
  unfold block
  rw [extract_ordered h]

theorem blocks_ordered {tree : FileTree} (h : tree.IsSound) (o : Options)
    (packages total : Nat) (directories : List Path) :
    blocks tree.ordered o packages total directories =
      blocks tree o packages total directories := by
  induction directories generalizing total with
  | nil => rfl
  | cons directory rest ih => simp only [blocks, block_ordered h, ih]

theorem run_ordered {tree : FileTree} (h : tree.IsSound) (o : Options) (root : Path) :
    run tree.ordered o root = run tree o root := by
  unfold run
  rw [Package.directories_ordered h]
  cases Package.directories tree root o.marker with
  | error failure => rfl
  | ok directories => simp only [blocks_ordered h]

/-- Two trees that differ only by the order of the entries within directories give the same
markers, the same packages, the same references and the same reports: what is written, how it
comes out, and what is told beside. -/
theorem run_eq_of_rearranged {a b : FileTree} (h : Rearranged a b) (ha : a.IsSound) :
    (∀ root marker, Package.markerFiles a root marker = Package.markerFiles b root marker) ∧
    (∀ root marker, Package.directories a root marker = Package.directories b root marker) ∧
    (∀ directory marker, Usage.collect a directory marker = Usage.collect b directory marker) ∧
    ∀ o root, run a o root = run b o root := by
  have hb : b.IsSound := h.isSound ha
  have hsame : a.ordered = b.ordered := h.ordered_eq ha
  refine ⟨?_, ?_, ?_, ?_⟩
  · intro root marker
    rw [← Package.markerFiles_ordered ha, hsame, Package.markerFiles_ordered hb]
  · intro root marker
    rw [← Package.directories_ordered ha, hsame, Package.directories_ordered hb]
  · intro directory marker
    rw [← Usage.collect_ordered ha, hsame, Usage.collect_ordered hb]
  · intro o root
    rw [← run_ordered ha, hsame, run_ordered hb]

/-! ## Files created in another order -/

/-- The entries of a package, the metadata file first. -/
def listedEntries : Entries :=
  [("Krmfile".toList, ofText []), ("b.yaml".toList, ofText "a: 1\n".toList),
    ("a.yaml".toList, .link "b.yaml".toList)]

/-- The entries of the same package, its files created in another order. -/
def shuffledEntries : Entries :=
  [("a.yaml".toList, .link "b.yaml".toList), ("Krmfile".toList, ofText []),
    ("b.yaml".toList, ofText "a: 1\n".toList)]

def listedTree : FileTree :=
  .directory [("pkg".toList, .directory listedEntries), ("Krmfile".toList, ofText [])]

def shuffledTree : FileTree :=
  .directory [("Krmfile".toList, ofText []), ("pkg".toList, .directory shuffledEntries)]

theorem rearranged_shuffledTree : Rearranged listedTree shuffledTree := by
  have hinside : Rearranged (.directory listedEntries) (.directory shuffledEntries) := by
    apply Rearranged.permute
    exact @List.perm_append_comm _ (listedEntries.take 2) (listedEntries.drop 2)
  have hpackage := hinside.inside [] [("Krmfile".toList, ofText [])] "pkg".toList
  exact hpackage.trans (.permute (List.Perm.swap _ _ []))

/-- The general statement at the two trees. -/
theorem run_eq_of_rearranged_shuffled :
    Rearranged listedTree shuffledTree ∧ listedTree.IsSound ∧
    (∀ root marker, Package.markerFiles listedTree root marker =
      Package.markerFiles shuffledTree root marker) ∧
    (∀ root marker, Package.directories listedTree root marker =
      Package.directories shuffledTree root marker) ∧
    (∀ directory marker, Usage.collect listedTree directory marker =
      Usage.collect shuffledTree directory marker) ∧
    ∀ o root, run listedTree o root = run shuffledTree o root :=
  ⟨rearranged_shuffledTree, by decide +kernel,
    run_eq_of_rearranged rearranged_shuffledTree (by decide +kernel)⟩

end SetterReport.Report
