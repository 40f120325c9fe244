import SetterReport.Proofs.SetterCount
import SetterReport.Report

/-!
# A package's block depends on the package only

The block of a package shows the records of its metadata file, with counts of the
fields in its files.  Both are read from the package's own files: those below its
directory that lie in no nested package.  Two trees that agree on these files show
the same block, whatever else they hold, inside nested packages or outside the
directory.

What is read of a nested package, the probe for its marker, decides only that its
files are left out; so it enters the statement through `IsUnnested` and not as a
file of its own.

## Main result

* `block_eq_of_agree` — two trees that agree on a package's own files give the
  same block, and the same records or the same failure.
-/

namespace SetterReport.Report

open FileTree Usage
open SetterReport.Path (IsBare)

/-- A file of the package in a directory, resource file or not. -/
def IsOwnFile (marker : Text) (t : FileTree) (names : List Text) (content : ByteArray) : Prop :=
  t.below? names = some (.file content) ∧ IsUnnested marker t names

/-- Two directories have the same files that belong to their package. -/
def AgreeOnPackage (marker : Text) (a b : FileTree) : Prop :=
  ∀ names content, IsOwnFile marker a names content ↔ IsOwnFile marker b names content

/-- A tree in which a path leads to a directory that holds a marker file. -/
structure HasPackage (tree : FileTree) (directory : Path) (marker : Text) (es : Entries) :
    Prop where
  sound : tree.IsSound
  linkFree : tree.IsLinkFree
  located : ∃ around, tree.locate directory = .ok (.directory (es :: around))
  marked : ∃ content, child? marker es = some (.file content)

/-! ## The package's own files -/

theorem packageFiles_iff {marker : Text} {t : FileTree} {names : List Text} {text : Text} :
    packageFiles marker t names text ↔ ∃ content, IsOwnFile marker t names content ∧
      IsResourceText marker names (.file content) text := by
  constructor
  · rintro ⟨⟨node, hnode, htext⟩, hunnested⟩
    obtain ⟨content, name, rfl, hrest⟩ := htext
    exact ⟨content, ⟨hnode, hunnested⟩, content, name, rfl, hrest⟩
  · rintro ⟨content, ⟨hnode, hunnested⟩, htext⟩
    exact ⟨⟨_, hnode, htext⟩, hunnested⟩

theorem AgreeOnPackage.packageFiles_eq {marker : Text} {a b : FileTree}
    (h : AgreeOnPackage marker a b) : packageFiles marker a = packageFiles marker b := by
  funext names text
  rw [packageFiles_iff, packageFiles_iff]
  simp only [h names]

/-- The marker file is one of the package's own files. -/
theorem isOwnFile_marker {marker : Text} {es : Entries} {content : ByteArray} :
    IsOwnFile marker (.directory es) [marker] content ↔
      child? marker es = some (.file content) := by
  unfold IsOwnFile
  rw [below?_singleton]
  refine ⟨And.left, fun hchild => ⟨hchild, ?_⟩⟩
  -- the only nonempty beginning of these names leads to the marker file itself
  intro front hne hfront found
  obtain rfl : front = [marker] := by
    rcases List.prefix_cons_iff.1 hfront with rfl | ⟨rest, rfl, hrest⟩
    · exact absurd rfl hne
    · rw [List.prefix_nil.1 hrest]
  intro hmarked
  obtain ⟨inner, hinner, -⟩ := below?_concat_iff.1 hmarked
  simp [hchild] at hinner

/-- A nested package may come and go without a change to the files of the package
around it. -/
theorem agree_append_nested {marker name : Text} {es inner : Entries}
    (hname : child? name es = none)
    (hmarked : ∃ content, child? marker inner = some (.file content)) :
    AgreeOnPackage marker (.directory es) (.directory (es ++ [(name, .directory inner)])) := by
  have hbelow : ∀ n rest, n ≠ name →
      (FileTree.directory (es ++ [(name, .directory inner)])).below? (n :: rest) =
        (FileTree.directory es).below? (n :: rest) := by
    intro n rest hne
    have hchild : child? n (es ++ [(name, .directory inner)]) = child? n es := by
      unfold child?
      rw [List.find?_append, List.find?_cons_of_neg (by simpa using hne.symm)]
      simp
    exact congrArg (·.bind (·.below? rest)) hchild
  intro names content
  cases names with
  | nil => simp [IsOwnFile, below?]
  | cons n rest =>
      by_cases hn : n = name
      · subst hn
        constructor
        · rintro ⟨hfile, -⟩
          simp [below?, entries, hname] at hfile
        · rintro ⟨-, hunnested⟩
          obtain ⟨found, hfound⟩ := hmarked
          refine absurd ?_ (hunnested [n] (by simp) (by simp) found)
          have hnested : (FileTree.directory (es ++ [(n, .directory inner)])).below? [n] =
              some (.directory inner) := by
            have hnone : es.find? (·.1 == n) = none := Option.map_eq_none_iff.1 hname
            simp [child?, List.find?_append, hnone]
          exact below?_concat_iff.2 ⟨inner, hnested, hfound⟩
      · unfold IsOwnFile IsUnnested
        rw [hbelow n rest hn]
        refine and_congr_right fun _ => ?_
        constructor
        · intro h front hne hfront found
          cases front with
          | nil => exact absurd rfl hne
          | cons first front =>
              obtain ⟨rfl, -⟩ := List.cons_prefix_cons.1 hfront
              rw [List.cons_append, hbelow _ _ hn]
              exact h _ hne hfront found
        · intro h front hne hfront found
          cases front with
          | nil => exact absurd rfl hne
          | cons first front =>
              obtain ⟨rfl, -⟩ := List.cons_prefix_cons.1 hfront
              rw [List.cons_append, ← hbelow _ _ hn]
              exact h _ hne hfront found

/-! ## Reading the package -/

section Reading

variable {tree : FileTree} {directory : Path} {marker : Text} {es : Entries}

/-- A metadata path that can be opened leads to the marker file. -/
theorem HasPackage.locate_metadataPath (h : HasPackage tree directory marker es)
    {content : ByteArray}
    (hchild : child? marker es = some (.file content))
    (hopen : IsOpenable (directory.join marker).spelling) :
    tree.locate (directory.join marker) = .ok (.file content) := by
  obtain ⟨around, hlocate⟩ := h.located
  obtain ⟨-, henter⟩ := (follow_eq_directory_iff h.linkFree true _ _).1 hlocate
  have hsoundHere := h.sound.of_locate hlocate
  exact follow_join_file henter (hsoundHere.isEntryName hchild) hopen hchild true

/-- The directory of the metadata path is the package's directory. -/
theorem HasPackage.locate_directoryOf (h : HasPackage tree directory marker es)
    (hmarker : IsBare marker) (hopen : IsOpenable (directory.join marker).spelling) :
    ∃ around,
      tree.locate (Extraction.directoryOf (directory.join marker)) =
        .ok (.directory (es :: around)) := by
  obtain ⟨around, hlocate⟩ := h.located
  obtain ⟨hopenHere, henter⟩ := (follow_eq_directory_iff h.linkFree true _ _).1 hlocate
  obtain ⟨d, hd, hbegins, hcomponents⟩ := Path.exists_parent_join directory hmarker
  have hdirectory : Extraction.directoryOf (directory.join marker) = d := by
    simp [Extraction.directoryOf, hd]
  have hne : d.spelling ≠ [] := by
    rw [Ne, ← Path.components_eq_nil_iff, hcomponents, Path.components_eq_nil_iff]
    exact hopenHere.ne_nil
  refine ⟨around, ?_⟩
  rw [hdirectory]
  refine (follow_eq_directory_iff h.linkFree true _ _).2 ⟨hopen.of_isPrefix hbegins hne, ?_⟩
  rw [((Path.components_eq_iff _ _).1 hcomponents).2]
  exact henter

end Reading

/-- A path that cannot be opened leads nowhere, and in every tree for the same
reason. -/
theorem locate_of_not_isOpenable {path : Path} (h : ¬IsOpenable path.spelling)
    (a b : FileTree) : a.locate path = b.locate path := by
  unfold locate follow
  split
  · rfl
  · split
    · rfl
    · split
      · rfl
      · exact absurd ⟨by simpa using ‹¬path.spelling.contains '\x00' = true›,
          by simpa using ‹¬path.spelling.isEmpty = true›, by omega⟩ h

/-! ## The block -/

/-- The records that an extraction gave, or its failure. -/
def recordsOf (r : Except Failure Extraction.Extracted) : Except Failure Records :=
  r.map Extraction.Extracted.records

/-- What is extracted depends on the package's own files only. -/
theorem recordsOf_extract_eq {a b : FileTree} {directory : Path} {marker : Text}
    (hmarker : IsBare marker) {es fs : Entries} (ha : HasPackage a directory marker es)
    (hb : HasPackage b directory marker fs)
    (hagree : AgreeOnPackage marker (.directory es) (.directory fs)) (name : Option Text) :
    recordsOf (Extraction.extract a (directory.join marker) name) =
      recordsOf (Extraction.extract b (directory.join marker) name) := by
  have hlocate : a.locate (directory.join marker) = b.locate (directory.join marker) := by
    by_cases hopen : IsOpenable (directory.join marker).spelling
    · obtain ⟨content, hchild⟩ := ha.marked
      have hother : child? marker fs = some (.file content) :=
        isOwnFile_marker.1 ((hagree _ _).1 (isOwnFile_marker.2 hchild))
      rw [ha.locate_metadataPath hchild hopen,
        hb.locate_metadataPath hother hopen]
    · exact locate_of_not_isOpenable hopen a b
  have hread : Metadata.readFile a (directory.join marker) =
      Metadata.readFile b (directory.join marker) := by
    unfold Metadata.readFile readText
    rw [hlocate]
  cases hdeclared : Metadata.readFile b (directory.join marker) with
  | error failure =>
      unfold Extraction.extract
      rw [hread, hdeclared]
  | ok declared =>
      have hopen : IsOpenable (directory.join marker).spelling := by
        unfold Metadata.readFile readText at hdeclared
        cases hplace : b.locate (directory.join marker) with
        | error fault => simp [hplace, Except.bind] at hdeclared
        | ok place => exact isOpenable_of_follow hplace
      obtain ⟨around, hlocateA⟩ := ha.locate_directoryOf hmarker hopen
      obtain ⟨around', hlocateB⟩ := hb.locate_directoryOf hmarker hopen
      have hname : Extraction.markerOf (directory.join marker) = marker := by
        simp [Extraction.markerOf, Path.fileName?_join directory hmarker]
      have hcount : (collect a (Extraction.directoryOf (directory.join marker)) marker).count =
          (collect b (Extraction.directoryOf (directory.join marker)) marker).count := by
        funext n
        have hcast := (count_collect ha.sound ha.linkFree hmarker hlocateA n).trans
          (hagree.packageFiles_eq ▸
            (count_collect hb.sound hb.linkFree hmarker hlocateB n).symm)
        exact_mod_cast hcast
      rw [Extraction.extract_of_readFile (hread.trans hdeclared),
        Extraction.extract_of_readFile hdeclared]
      unfold recordsOf
      simp only [Except.map, Extraction.records_extractFrom, hname, hcount]

/-- Two trees without links, in both of which a path leads to the directory of a
package, give the same block for it, and the same records or the same failure, if
they agree on the files that belong to the package. -/
theorem block_eq_of_agree {a b : FileTree} {o : Options} {directory : Path}
    (hmarker : IsBare o.marker) {es fs : Entries}
    (ha : HasPackage a directory o.marker es) (hb : HasPackage b directory o.marker fs)
    (hagree : AgreeOnPackage o.marker (.directory es) (.directory fs)) :
    (block a o directory).1 = (block b o directory).1 ∧
      recordsOf (block a o directory).2 = recordsOf (block b o directory).2 := by
  have hrecords := recordsOf_extract_eq hmarker ha hb hagree o.name
  unfold block Package.metadataPath
  cases hextractA : Extraction.extract a (directory.join o.marker) o.name with
  | error failure =>
      cases hextractB : Extraction.extract b (directory.join o.marker) o.name with
      | error other =>
          rw [hextractA, hextractB] at hrecords
          exact ⟨rfl, hrecords⟩
      | ok e =>
          rw [hextractA, hextractB] at hrecords
          simp [recordsOf, Except.map] at hrecords
  | ok e =>
      cases hextractB : Extraction.extract b (directory.join o.marker) o.name with
      | error failure =>
          rw [hextractA, hextractB] at hrecords
          simp [recordsOf, Except.map] at hrecords
      | ok e' =>
          rw [hextractA, hextractB] at hrecords
          have hsame : e.records = e'.records := by
            simpa [recordsOf, Except.map] using hrecords
          exact ⟨by simp only [hsame], hrecords⟩

/-- The package of the homonyms beside a nested package with a field of the same
name. -/
def nestedEntries : Entries :=
  [("Krmfile".toList, ofText []),
    ("deploy.yaml".toList, ofText "# \x7b\"$openapi\":\"image\"\x7d\n".toList)]

def nestedTree : FileTree :=
  .directory [("pkg".toList,
    .directory (Extraction.homonymEntries ++ [("nested".toList, .directory nestedEntries)]))]

/-- The general statement at a tree with and without the nested package. -/
theorem block_eq_of_nested :
    (block Extraction.homonymTree ⟨"Krmfile".toList, none, .plain, true⟩ ⟨"pkg".toList⟩).1 =
        (block nestedTree ⟨"Krmfile".toList, none, .plain, true⟩ ⟨"pkg".toList⟩).1 ∧
      recordsOf (block Extraction.homonymTree ⟨"Krmfile".toList, none, .plain, true⟩
          ⟨"pkg".toList⟩).2 =
        recordsOf (block nestedTree ⟨"Krmfile".toList, none, .plain, true⟩ ⟨"pkg".toList⟩).2 :=
  block_eq_of_agree (by decide +kernel)
    ⟨by decide +kernel, by decide +kernel, ⟨_, rfl⟩, ⟨_, rfl⟩⟩
    ⟨by decide +kernel, by decide +kernel, ⟨_, rfl⟩, ⟨_, rfl⟩⟩
    (agree_append_nested rfl ⟨_, rfl⟩)

end SetterReport.Report
