import SetterReport.Extraction
import SetterReport.Proofs.FieldCount
import SetterReport.Proofs.SubstitutionClosure

/-!
# The count of a setter

A setter is used by the fields that refer to its own name or to the name of a
substitution that uses it (`usedBy`).  The count adds up the two kinds of
fields.  In the comments of resource files setters and substitutions share one
name space, so when a substitution that uses a setter has the setter's name, the
fields that refer to this name are of both kinds and count twice.

## Main result

* `count_extract` — the count of an extracted setter is the number of fields of
  its package that use it, plus the number of those that count twice; it is the
  number of fields exactly when there are no such fields.
-/

namespace SetterReport.Usage

open FileTree

/-- The names of the substitutions that use a setter. -/
def usedBy (setter : Text) (substitutions : List Substitution) : Set Text :=
  {name | ∃ s, Uses setter substitutions s ∧ s.name = name}

theorem fieldsIn_inter {files : List Text → Text → Prop}
    (hfiles : ∀ names a b, files names a → files names b → a = b) (a b : Set Text) :
    fieldsIn files (a ∩ b) = fieldsIn files a ∩ fieldsIn files b := by
  ext site
  constructor
  · rintro ⟨text, line, name, hfile, hline, hread, ha, hb⟩
    exact ⟨⟨text, line, name, hfile, hline, hread, ha⟩,
      ⟨text, line, name, hfile, hline, hread, hb⟩⟩
  · rintro ⟨⟨text, line, name, hfile, hline, hread, ha⟩,
      ⟨text', line', name', hfile', hline', hread', hb⟩⟩
    obtain rfl := hfiles _ _ _ hfile hfile'
    obtain rfl := Option.some.inj (hline.symm.trans hline')
    obtain rfl := Option.some.inj (hread.symm.trans hread')
    exact ⟨text, line, name, hfile, hline, hread, ha, hb⟩

/-- The fields that refer to one of several names are counted name by name. -/
theorem encard_fieldsIn_mem {files : List Text → Text → Prop}
    (hfiles : ∀ names a b, files names a → files names b → a = b) {names : List Text}
    (hnodup : names.Nodup) :
    (fieldsIn files {name | name ∈ names}).encard =
      (names.map fun name => (fieldsIn files {name}).encard).sum := by
  have hsplit : fieldsIn files {name | name ∈ names} =
      {site | ∃ name ∈ names, site ∈ fieldsIn files {name}} := by
    ext site
    constructor
    · rintro ⟨text, line, name, hfile, hline, hread, hname⟩
      exact ⟨name, hname, text, line, name, hfile, hline, hread, rfl⟩
    · rintro ⟨_, hname, text, line, name, hfile, hline, hread, rfl⟩
      exact ⟨text, line, name, hfile, hline, hread, hname⟩
  rw [hsplit, encard_exists_mem]
  refine hnodup.imp ?_
  intro a b hab
  exact fieldsIn_disjoint hfiles (Set.disjoint_singleton.2 hab)

/-- The count of a setter, where the number of references to each name is that of
the fields: the fields that use the setter, those of both kinds twice. -/
theorem count_eq {files : List Text → Text → Prop}
    (hfiles : ∀ names a b, files names a → files names b → a = b) {references : Text → Nat}
    (hreferences : ∀ name, (references name : ℕ∞) = (fieldsIn files {name}).encard)
    (setter : Text) (substitutions : List Substitution) :
    (count setter references substitutions : ℕ∞) =
      (fieldsIn files ({setter} ∪ usedBy setter substitutions)).encard +
        (fieldsIn files ({setter} ∩ usedBy setter substitutions)).encard := by
  have hused : usedBy setter substitutions =
      {name | name ∈ (closure setter substitutions).dependents} := by
    ext name
    exact mem_dependents_closure.symm
  have hsum : ∀ names : List Text,
      ((names.foldr (fun name n => references name + n) 0 : ℕ) : ℕ∞) =
        (names.map fun name => (fieldsIn files {name}).encard).sum := by
    intro names
    induction names with
    | nil => rfl
    | cons name rest ih =>
        rw [List.foldr_cons, Nat.cast_add, ih, hreferences, List.map_cons, List.sum_cons]
  rw [fieldsIn_union, fieldsIn_inter hfiles, Set.encard_union_add_encard_inter, hused,
    encard_fieldsIn_mem hfiles (isReached_closure setter substitutions).nodup, ← hsum,
    ← hreferences]
  exact Nat.cast_add _ _

end SetterReport.Usage

namespace SetterReport.Metadata

/-- Reading a metadata file that holds a text parses that text. -/
theorem readFile_of_locate {tree : FileTree} {path : Path} {text : Text}
    (h : tree.locate path = .ok (.file (String.ofList text).toUTF8)) :
    readFile tree path = parse path.spelling text := by
  unfold readFile FileTree.readText
  rw [h]
  simp only [Except.bind, FileTree.Place.readText, FileTree.decode_ofList]

end SetterReport.Metadata

namespace SetterReport.Extraction

open FileTree Usage

/-- A metadata file that can be read is a file in the directory of its path,
under the name that marks packages. -/
theorem exists_directory_of_readFile {tree : FileTree} (hfree : tree.IsLinkFree)
    {path : Path} (hparent : (directoryOf path).spelling ≠ []) {declared : Records}
    (hdeclared : Metadata.readFile tree path = .ok declared) :
    Path.IsBare (markerOf path) ∧ ∃ es around,
      tree.locate (directoryOf path) = .ok (.directory (es :: around)) := by
  have hfile : ∃ content, tree.locate path = .ok (.file content) := by
    unfold Metadata.readFile FileTree.readText at hdeclared
    cases hplace : tree.locate path with
    | error fault => simp [hplace, Except.bind] at hdeclared
    | ok place =>
        cases place with
        | file content => exact ⟨content, rfl⟩
        | directory trail => simp [hplace, Except.bind, Place.readText] at hdeclared
        | link around target => simp [hplace, Except.bind, Place.readText] at hdeclared
  obtain ⟨content, hlocate⟩ := hfile
  obtain ⟨name, d, trail, hname, hd, hbegins, henter, hchild⟩ :=
    follow_file_parent hfree hlocate
  have hdirectory : directoryOf path = d := by simp [directoryOf, hd]
  have hmarker : markerOf path = name := by simp [markerOf, hname]
  rw [hdirectory] at hparent ⊢
  have hopen : IsOpenable d.spelling :=
    (isOpenable_of_follow hlocate).of_isPrefix hbegins hparent
  have hplace : tree.locate d = .ok (.directory trail) :=
    (follow_eq_directory_iff hfree true _ _).2 ⟨hopen, henter⟩
  refine ⟨hmarker ▸ Path.isBare_of_fileName? hname, ?_⟩
  match trail, hchild with
  | [], hchild => simp [child?] at hchild
  | es :: around, _ => exact ⟨es, around, hplace⟩

theorem extract_of_readFile {tree : FileTree} {path : Path} {declared : Records}
    (hdeclared : Metadata.readFile tree path = .ok declared) (name : Option Text) :
    extract tree path name = .ok (extractFrom tree declared path name) := by
  unfold extract
  rw [hdeclared]

/-- The extracted records are the declared ones of the name asked for, the setters
with their counts. -/
theorem records_extractFrom (tree : FileTree) (declared : Records) (path : Path)
    (name : Option Text) :
    (extractFrom tree declared path name).records =
      ⟨(declared.named name).setters.map (withCount
          (collect tree (directoryOf path) (markerOf path)).count declared.substitutions),
        (declared.named name).substitutions⟩ := by
  simp only [extractFrom]
  split
  · rename_i hnone
    show declared.named name = _
    rw [hnone, List.map_nil, ← hnone]
  · rfl

theorem count_of_mem_extractFrom {tree : FileTree} {declared : Records} {path : Path}
    {name : Option Text} {s : Setter}
    (hs : s ∈ (extractFrom tree declared path name).records.setters) :
    s.count = Usage.count s.name
      (Usage.collect tree (directoryOf path) (markerOf path)).count declared.substitutions := by
  rw [records_extractFrom] at hs
  obtain ⟨kept, -, rfl⟩ := List.mem_map.1 hs
  rfl

/-- The count of an extracted setter is the number of fields of the package that
use the setter, plus the number of fields that refer to the setter's name when a
substitution that uses it has that name too.  So it is the number of fields that
use the setter exactly when no field is of both kinds. -/
theorem count_extract {tree : FileTree} (hsound : tree.IsSound) (hfree : tree.IsLinkFree)
    {path : Path} (hparent : (directoryOf path).spelling ≠ []) {declared : Records}
    (hdeclared : Metadata.readFile tree path = .ok declared) {name : Option Text}
    {e : Extracted} (hextract : extract tree path name = .ok e) {s : Setter}
    (hs : s ∈ e.records.setters) :
    ∃ es around, tree.locate (directoryOf path) = .ok (.directory (es :: around)) ∧
      let fields := fieldsIn (packageFiles (markerOf path) (.directory es))
      let users := usedBy s.name declared.substitutions
      (s.count : ℕ∞) = (fields ({s.name} ∪ users)).encard + (fields ({s.name} ∩ users)).encard ∧
        ((s.count : ℕ∞) = (fields ({s.name} ∪ users)).encard ↔
          (s.name ∈ users → fields {s.name} = ∅)) := by
  obtain ⟨hmarker, es, around, hlocate⟩ := exists_directory_of_readFile hfree hparent hdeclared
  refine ⟨es, around, hlocate, ?_⟩
  intro fields users
  rw [extract_of_readFile hdeclared] at hextract
  obtain rfl := Except.ok.inj hextract
  have hcount : (s.count : ℕ∞) =
      (fields ({s.name} ∪ users)).encard + (fields ({s.name} ∩ users)).encard := by
    rw [count_of_mem_extractFrom hs]
    exact Usage.count_eq packageFiles_unique
      (fun n => count_collect hsound hfree hmarker hlocate n) s.name declared.substitutions
  refine ⟨hcount, ?_⟩
  have hfinite : (fields ({s.name} ∪ users)).encard ≠ ⊤ := by
    intro htop
    rw [htop, top_add] at hcount
    exact ENat.natCast_ne_top _ hcount
  have hshared : fields ({s.name} ∩ users) = ∅ ↔ (s.name ∈ users → fields {s.name} = ∅) := by
    by_cases hname : s.name ∈ users
    · rw [Set.inter_eq_left.2 (Set.singleton_subset_iff.2 hname)]
      simp [hname]
    · rw [Set.singleton_inter_eq_empty.2 hname]
      simp [hname, fields, fieldsIn]
  have hcancel : ∀ b : ℕ∞, (fields ({s.name} ∪ users)).encard + b =
      (fields ({s.name} ∪ users)).encard ↔ b = 0 := by
    intro b
    conv_lhs => rhs; rw [← add_zero (fields ({s.name} ∪ users)).encard]
    exact (ENat.add_right_injective_of_ne_top hfinite).eq_iff
  rw [← hshared, ← Set.encard_eq_zero, hcount, hcancel]

/-! ## A setter and a substitution of one name -/

/-- A metadata file that declares a setter and a substitution, both named `image`;
the substitution uses the setter. -/
def homonymFile : Text :=
  "openAPI:\n".toList ++
  "  definitions:\n".toList ++
  "    io.k8s.cli.setters.image:\n".toList ++
  "      x-k8s-cli:\n".toList ++
  "        setter:\n".toList ++
  "          value: nginx\n".toList ++
  "    io.k8s.cli.substitutions.image:\n".toList ++
  "      x-k8s-cli:\n".toList ++
  "        substitution:\n".toList ++
  "          values:\n".toList ++
  "          - ref: '#/definitions/io.k8s.cli.setters.image'\n".toList

/-- What the file declares. -/
def homonyms : Records where
  setters := [{ name := "image".toList, value := "nginx".toList }]
  substitutions :=
    [{ name := "image".toList, references := [Reference.ofSetter "image".toList] }]

/-- The entries of a package with this file and with one field, which refers to
`image`. -/
def homonymEntries : Entries :=
  [("Krmfile".toList, ofText homonymFile),
    ("deploy.yaml".toList, ofText "image: nginx # \x7b\"$openapi\":\"image\"\x7d\n".toList)]

def homonymTree : FileTree :=
  .directory [("pkg".toList, .directory homonymEntries)]

/-- The path of the metadata file. -/
def homonymPath : Path := ⟨"pkg/Krmfile".toList⟩

/-- The one setter of the package, with its count. -/
def homonymSetter : Setter :=
  { name := "image".toList, value := "nginx".toList, count := 2 }

theorem readFile_homonymTree :
    Metadata.readFile homonymTree homonymPath = .ok homonyms := by
  have hlocate : homonymTree.locate homonymPath =
      .ok (.file (String.ofList homonymFile).toUTF8) := by rfl
  rw [Metadata.readFile_of_locate hlocate]
  decide +kernel

theorem homonymSetter_mem :
    homonymSetter ∈ (extractFrom homonymTree homonyms homonymPath none).records.setters := by
  decide +kernel

/-- The general statement at the homonyms. -/
theorem count_extract_homonyms :
    ∃ e, extract homonymTree homonymPath none = .ok e ∧ homonymSetter ∈ e.records.setters ∧
      ∃ es around, homonymTree.locate (directoryOf homonymPath) =
          .ok (.directory (es :: around)) ∧
        let fields := fieldsIn (packageFiles (markerOf homonymPath) (.directory es))
        let users := usedBy homonymSetter.name homonyms.substitutions
        (homonymSetter.count : ℕ∞) = (fields ({homonymSetter.name} ∪ users)).encard +
            (fields ({homonymSetter.name} ∩ users)).encard ∧
          ((homonymSetter.count : ℕ∞) = (fields ({homonymSetter.name} ∪ users)).encard ↔
            (homonymSetter.name ∈ users → fields {homonymSetter.name} = ∅)) := by
  have hextract := extract_of_readFile readFile_homonymTree none
  exact ⟨_, hextract, homonymSetter_mem,
    count_extract (by decide +kernel) (by decide +kernel) (by decide +kernel)
      readFile_homonymTree hextract homonymSetter_mem⟩

/-- One field uses the setter, and the count is two. -/
theorem count_homonym_ne :
    ∃ e, extract homonymTree homonymPath none = .ok e ∧ homonymSetter ∈ e.records.setters ∧
      homonymTree.locate (directoryOf homonymPath) =
        .ok (.directory [homonymEntries, homonymTree.entries]) ∧
      (homonymSetter.count : ℕ∞) = 2 ∧
      (fieldsIn (packageFiles (markerOf homonymPath) (.directory homonymEntries))
        ({homonymSetter.name} ∪
          usedBy homonymSetter.name homonyms.substitutions)).encard = 1 := by
  have hextract := extract_of_readFile readFile_homonymTree none
  have hlocate : homonymTree.locate (directoryOf homonymPath) =
      .ok (.directory [homonymEntries, homonymTree.entries]) := by rfl
  refine ⟨_, hextract, homonymSetter_mem, hlocate, rfl, ?_⟩
  have husers : {homonymSetter.name} ∪ usedBy homonymSetter.name homonyms.substitutions =
      {homonymSetter.name} := by
    refine Set.union_eq_left.2 ?_
    rintro _ ⟨s, huses, rfl⟩
    obtain rfl := List.mem_singleton.1 huses.mem
    rfl
  have hone : (collect homonymTree (directoryOf homonymPath) (markerOf homonymPath)).count
      homonymSetter.name = 1 := by
    decide +kernel
  rw [husers, ← count_collect (by decide +kernel) (by decide +kernel) (by decide +kernel)
    hlocate, hone]
  rfl

end SetterReport.Extraction
