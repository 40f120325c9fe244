import SetterReport.Proofs.FieldCount

/-!
# What a walk collects

`count_collect` gives the number of references to a name as the size of a set of fields.
This file draws the rest of the map from it: a name is listed exactly when it has a field,
and the map depends on the files that can be read and on nothing else.

Two kinds of files are passed over.  A file whose bytes are no text is not searched for
fields, and the marker file of the directory itself neither is searched nor keeps the walk
out, since the walk has to begin somewhere (`IsPassedOver`).  A marker file further down is
no such file: its bytes do not matter, but that it is there closes its directory.

## Main result

* `collect_counts_fields` — the map of references, name by name, and that files which are
  passed over may come, go or change without any effect on it.
-/

namespace SetterReport.Usage

open FileTree
open SetterReport.Path (IsBare)

/-- A file that no field is read from and that closes no directory: the marker file of the
directory where the walk begins, or a file of another name whose bytes are no text. -/
def IsPassedOver (marker : Text) (names : List Text) (content : ByteArray) : Prop :=
  names = [marker] ∨ (names.getLast? ≠ some marker ∧ ∀ text, decode content ≠ .ok text)

/-- Two directories have the same files, apart from those that are passed over. -/
def AgreeOnReadable (marker : Text) (a b : FileTree) : Prop :=
  ∀ names content, ¬IsPassedOver marker names content →
    (a.below? names = some (.file content) ↔ b.below? names = some (.file content))

theorem AgreeOnReadable.symm {marker : Text} {a b : FileTree}
    (h : AgreeOnReadable marker a b) : AgreeOnReadable marker b a := by
  intro names content hread
  exact (h names content hread).symm

/-- A resource file with a text is not passed over. -/
theorem IsResourceText.not_passedOver {marker : Text} {names : List Text}
    {content : ByteArray} {text : Text}
    (h : IsResourceText marker names (.file content) text) :
    ¬IsPassedOver marker names content := by
  obtain ⟨found, name, hnode, hdecode, hlast, hne, -⟩ := h
  have hcontent : content = found := by simpa using hnode
  intro hpassed
  cases hpassed with
  | inl hmarker =>
      rw [hmarker] at hlast
      have hname : marker = name := by simpa using hlast
      exact hne hname.symm
  | inr hunreadable =>
      apply hunreadable.2 text
      rw [hcontent]
      exact hdecode

/-- Nor is a marker file below a nested directory. -/
theorem not_passedOver_concat {marker : Text} {front : List Text} (hne : front ≠ [])
    (content : ByteArray) : ¬IsPassedOver marker (front ++ [marker]) content := by
  intro hpassed
  cases hpassed with
  | inl hmarker =>
      have hlength := congrArg List.length hmarker
      have hpos : 0 < front.length := List.length_pos_of_ne_nil hne
      simp only [List.length_append, List.length_cons, List.length_nil] at hlength
      omega
  | inr hunreadable => exact hunreadable.1 (by simp)

theorem AgreeOnReadable.isUnnested {marker : Text} {a b : FileTree}
    (h : AgreeOnReadable marker a b) {names : List Text} (hunnested : IsUnnested marker a names) :
    IsUnnested marker b names := by
  intro front hne hfront content hmarked
  apply hunnested front hne hfront content
  exact (h _ content (not_passedOver_concat hne content)).2 hmarked

theorem AgreeOnReadable.packageFiles_of {marker : Text} {a b : FileTree}
    (h : AgreeOnReadable marker a b) {names : List Text} {text : Text}
    (hfile : packageFiles marker a names text) : packageFiles marker b names text := by
  obtain ⟨⟨node, hnode, htext⟩, hunnested⟩ := hfile
  have hcontent : ∃ content, node = .file content := by
    obtain ⟨content, -, hnode, -⟩ := htext
    exact ⟨content, hnode⟩
  obtain ⟨content, rfl⟩ := hcontent
  have hother : b.below? names = some (.file content) :=
    (h names content htext.not_passedOver).1 hnode
  exact ⟨⟨.file content, hother, htext⟩, h.isUnnested hunnested⟩

/-- The package's files are the same where the readable files are. -/
theorem AgreeOnReadable.packageFiles_eq {marker : Text} {a b : FileTree}
    (h : AgreeOnReadable marker a b) : packageFiles marker a = packageFiles marker b := by
  funext names text
  apply propext
  constructor
  · exact h.packageFiles_of
  · exact h.symm.packageFiles_of

/-- No field lies in a file that is passed over. -/
theorem ne_of_mem_fieldsIn {marker : Text} {t : FileTree} {names : List Text}
    {content : ByteArray} (hfile : t.below? names = some (.file content))
    (hpassed : IsPassedOver marker names content) {wanted : Set Text} {site : List Text × Nat}
    (hsite : site ∈ fieldsIn (packageFiles marker t) wanted) : site.1 ≠ names := by
  obtain ⟨text, _, _, ⟨⟨node, hnode, htext⟩, -⟩, -⟩ := hsite
  intro hnames
  rw [hnames] at hnode htext
  have hsame : node = .file content := Option.some.inj (hnode.symm.trans hfile)
  rw [hsame] at htext
  exact htext.not_passedOver hpassed

/-- A file that is passed over may be left out of a directory. -/
theorem agree_append_cons {marker name : Text} {content : ByteArray}
    (hpassed : IsPassedOver marker [name] content) {before after : Entries}
    (hnew : child? name (before ++ after) = none) :
    AgreeOnReadable marker (.directory (before ++ (name, .file content) :: after))
      (.directory (before ++ after)) := by
  have hother : ∀ n, n ≠ name → child? n (before ++ (name, .file content) :: after) =
      child? n (before ++ after) := by
    intro n hn
    unfold child?
    rw [List.find?_append, List.find?_append,
      List.find?_cons_of_neg (by simpa using hn.symm)]
  have hfound : child? name (before ++ (name, .file content) :: after) =
      some (.file content) := by
    have hbefore : before.find? (·.1 == name) = none := by
      have hnone := Option.map_eq_none_iff.1 hnew
      rw [List.find?_append, Option.or_eq_none_iff] at hnone
      exact hnone.1
    unfold child?
    rw [List.find?_append, hbefore, List.find?_cons_of_pos (by simp)]
    rfl
  intro names found hread
  cases names with
  | nil => simp [below?]
  | cons first rest =>
      by_cases hfirst : first = name
      · subst hfirst
        -- only the file itself lies under its name, and it is not among the files to agree on
        cases rest with
        | nil =>
            rw [below?_singleton, below?_singleton, hfound, hnew]
            constructor
            · intro hsame
              have hcontent : content = found := by simpa using hsame
              exact absurd (hcontent ▸ hpassed) hread
            · intro hsame
              simp at hsame
        | cons next rest =>
            simp only [below?, entries, hfound, hnew]
            simp [child?]
      · show (child? first _).bind _ = _ ↔ (child? first _).bind _ = _
        rw [show child? first (FileTree.directory _).entries = _ from hother first hfirst]
        rfl

/-- In a tree without links, the walk of a directory counts for each name the fields of the
package that refer to it, and lists exactly the names with such fields.  None of these fields
lies in a file that is passed over, and any other directory with the same files apart from
those has the same counts. -/
theorem collect_counts_fields {tree : FileTree} (hsound : tree.IsSound) (hfree : tree.IsLinkFree)
    {directory : Path} {marker : Text} (hmarker : IsBare marker) {es : Entries}
    {around : Trail} (hlocate : tree.locate directory = .ok (.directory (es :: around))) :
    let found := collect tree directory marker
    let fields := fun name => fieldsIn (packageFiles marker (.directory es)) {name}
    (∀ name, (found.count name : ℕ∞) = (fields name).encard) ∧
      (∀ name, name ∉ found.names ↔ (fields name).encard = 0) ∧
      (∀ names content, (FileTree.directory es).below? names = some (.file content) →
        IsPassedOver marker names content → ∀ name, ∀ site ∈ fields name, site.1 ≠ names) ∧
      ∀ (other : FileTree) (path : Path) (es' : Entries) (around' : Trail),
        other.IsSound → other.IsLinkFree →
        other.locate path = .ok (.directory (es' :: around')) →
        AgreeOnReadable marker (.directory es) (.directory es') →
        (collect other path marker).count = found.count := by
  intro found fields
  have hcount : ∀ name, (found.count name : ℕ∞) = (fields name).encard := fun name =>
    count_collect hsound hfree hmarker hlocate name
  refine ⟨hcount, ?_, ?_, ?_⟩
  · intro name
    rw [← hcount name, Nat.cast_eq_zero]
    exact List.count_eq_zero.symm
  · intro names content hfile hpassed name site hsite
    exact ne_of_mem_fieldsIn hfile hpassed hsite
  · intro other path es' around' hsound' hfree' hlocate' hagree
    funext name
    have hother := count_collect hsound' hfree' hmarker hlocate' name
    rw [← hagree.packageFiles_eq] at hother
    exact Nat.cast_injective (hother.trans (hcount name).symm)

/-- A file with one field, which refers to `image`. -/
def imageFile : FileTree :=
  ofText "image: nginx # \x7b\"$openapi\":\"image\"\x7d\n".toList

/-- A package whose directory has a field in its marker, one in a resource file and one in a
nested package. -/
def readableEntries : Entries :=
  [("Krmfile".toList, imageFile), ("a.yaml".toList, imageFile),
    ("inner".toList, .directory [("Krmfile".toList, ofText []), ("c.yaml".toList, imageFile)])]

/-- The same package with a resource file that is no text. -/
def brokenEntries : Entries :=
  readableEntries ++ [("b.yaml".toList, .file ⟨#[0xff]⟩)]

/-- The general statement at the two packages: one field counts, and the broken file changes
nothing. -/
theorem collect_counts_fields_broken :
    (fieldsIn (packageFiles "Krmfile".toList (.directory brokenEntries))
        {"image".toList}).encard = 1 ∧
      (collect (.directory readableEntries) ⟨['.']⟩ "Krmfile".toList).count =
        (collect (.directory brokenEntries) ⟨['.']⟩ "Krmfile".toList).count := by
  have hlocate : ∀ es, (FileTree.directory es).locate ⟨['.']⟩ = .ok (.directory (es :: [])) :=
    fun _ => rfl
  have hmarker : IsBare "Krmfile".toList := by decide +kernel
  have hsound : (FileTree.directory brokenEntries).IsSound := by decide +kernel
  have hfree : (FileTree.directory brokenEntries).IsLinkFree := by decide +kernel
  obtain ⟨hcount, -, -, hother⟩ :=
    collect_counts_fields hsound hfree hmarker (hlocate brokenEntries)
  have hone : (collect (.directory brokenEntries) ⟨['.']⟩ "Krmfile".toList).count
      "image".toList = 1 := by
    decide +kernel
  have hbroken : IsPassedOver "Krmfile".toList ["b.yaml".toList] ⟨#[0xff]⟩ := by
    refine Or.inr ⟨by decide +kernel, ?_⟩
    intro text
    have hfault : decode ⟨#[0xff]⟩ = .error .notText := by
      decide +kernel
    simp [hfault]
  have hnew : child? "b.yaml".toList (readableEntries ++ []) = none := by rfl
  have hagree := agree_append_cons hbroken hnew
  rw [List.append_nil] at hagree
  constructor
  · rw [← hcount, hone]
    rfl
  · exact hother (.directory readableEntries) ⟨['.']⟩ readableEntries [] (by decide +kernel)
      (by decide +kernel) (hlocate readableEntries) hagree

end SetterReport.Usage
