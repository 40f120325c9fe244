import SetterReport.Proofs.CanonicalScalar
import SetterReport.Proofs.MetadataText

/-!
# Texts of records and texts of files

The same file is read twice: with its scalars as they are spelled, and with all of them in
quotes.  The first gives the records with every scalar as it is shown, the second those with
every scalar as it is written.  The records say the same exactly if all scalars that are visible
in them are canonical: quoted, a string, `true` or `false`, an integer in plain decimal digits, or
a floating point number in the form that is printed.

The files are those whose texts have a value that is not null (`isText`).  A null leaves its field
out; and an integer of more than 64 bits and at most 128 is refused, and the whole file with it
(`parse_of_refused`), so that such a file has no records unless that integer is in quotes.

Quoting a scalar changes neither the keys of a file nor its nesting, so a file that can be read
can be read with its scalars in quotes; this is followed through its levels, as the reading is.

## Main result

* `parse_quoted` — how the records of a file follow from the texts of its scalars.
-/

namespace SetterReport

open Yaml

/-! ## Respelling -/

namespace Yaml.Block

variable {α : Type}

/-- A mapping stays readable when what its keys hold is respelled. -/
theorem isReadable_mapping_map {e₁ e₂ : α → Text × Block} (hkey : ∀ x, (e₁ x).1 = (e₂ x).1)
    (hvalue : ∀ x depth, (e₁ x).2.isReadable depth = true → (e₂ x).2.isReadable depth = true)
    {xs : List α} {depth : Nat} (h : (mapping (xs.map e₁)).isReadable depth = true) :
    (mapping (xs.map e₂)).isReadable depth = true := by
  obtain ⟨inner, rfl, hnonempty, hdistinct, hentries⟩ := isReadable_mapping_iff.1 h
  refine isReadable_mapping_iff.2 ⟨inner, rfl, by simpa using hnonempty, ?_, ?_⟩
  · have hkeys : (xs.map e₂).map (·.1) = (xs.map e₁).map (·.1) := by simp [hkey]
    rw [hkeys]
    exact hdistinct
  · intro e he
    obtain ⟨x, hx, rfl⟩ := List.mem_map.1 he
    obtain ⟨hfield, hinner⟩ := hentries _ (List.mem_map_of_mem hx)
    exact ⟨hkey x ▸ hfield, hvalue x inner hinner⟩

/-- A sequence stays readable when its items are respelled. -/
theorem isReadable_sequence_map {b₁ b₂ : α → Block}
    (hitem : ∀ x depth, (b₁ x).isReadable depth = true → (b₂ x).isReadable depth = true)
    {xs : List α} {depth : Nat} (h : (sequence (xs.map b₁)).isReadable depth = true) :
    (sequence (xs.map b₂)).isReadable depth = true := by
  obtain ⟨inner, rfl, hnonempty, hitems⟩ := isReadable_sequence_iff.1 h
  refine isReadable_sequence_iff.2 ⟨inner, rfl, by simpa using hnonempty, ?_⟩
  intro b hb
  obtain ⟨x, hx, rfl⟩ := List.mem_map.1 hb
  exact hitem x inner (hitems _ (List.mem_map_of_mem hx))

end Yaml.Block

namespace Metadata

/-- The fields of a mapping stay readable when what the known ones hold is respelled. -/
theorem FieldText.isReadable_block {names : List Text} {α : Type} {e₁ e₂ : α → Text × Block}
    (hkey : ∀ x, (e₁ x).1 = (e₂ x).1)
    (hvalue : ∀ x depth, (e₁ x).2.isReadable depth = true → (e₂ x).2.isReadable depth = true)
    {fs : List (FieldText names α)} {depth : Nat}
    (h : (FieldText.block e₁ fs).isReadable depth = true) :
    (FieldText.block e₂ fs).isReadable depth = true := by
  refine Block.isReadable_mapping_map ?_ ?_ h
  · intro field
    cases field with
    | known x => exact hkey x
    | other o => rfl
  · intro field inner hinner
    cases field with
    | known x => exact hvalue x inner hinner
    | other o => exact hinner

section Respelling

variable {p : TextScalar → TextScalar} (q : TextScalar → TextScalar)

theorem isReadable_setterField (x : SetterField) (depth : Nat)
    (h : (x.entry p).2.isReadable depth = true) : (x.entry q).2.isReadable depth = true := by
  cases x with
  | name s => exact (q s).isReadable_block depth
  | value s => exact (q s).isReadable_block depth
  | listValues items =>
      exact Block.isReadable_sequence_map (fun s depth _ => (q s).isReadable_block depth) h
  | setBy s => exact (q s).isReadable_block depth
  | required b => exact h

theorem isReadable_substitutionField (x : SubstitutionField) (depth : Nat)
    (h : (x.entry p).2.isReadable depth = true) : (x.entry q).2.isReadable depth = true := by
  cases x with
  | name s => exact (q s).isReadable_block depth
  | pattern s => exact (q s).isReadable_block depth
  | values components =>
      have hkey : ∀ s, (referenceEntry p s).1 = (referenceEntry q s).1 := fun _ => rfl
      refine Block.isReadable_sequence_map ?_ h
      intro c inner hinner
      exact FieldText.isReadable_block hkey (fun s depth _ => (q s).isReadable_block depth) hinner

theorem isReadable_extensionField (x : ExtensionField) (depth : Nat)
    (h : (x.entry p).2.isReadable depth = true) : (x.entry q).2.isReadable depth = true := by
  cases x with
  | setter fs =>
      refine FieldText.isReadable_block ?_ (isReadable_setterField q) h
      intro field
      cases field <;> rfl
  | substitution fs =>
      refine FieldText.isReadable_block ?_ (isReadable_substitutionField q) h
      intro field
      cases field <;> rfl

theorem isReadable_definitionField (x : DefinitionField) (depth : Nat)
    (h : (x.entry p).2.isReadable depth = true) : (x.entry q).2.isReadable depth = true := by
  cases x with
  | description s => exact (q s).isReadable_block depth
  | extension fs =>
      refine FieldText.isReadable_block ?_ (isReadable_extensionField q) h
      intro field
      cases field <;> rfl

/-- A file stays readable when its scalars are respelled. -/
theorem isReadable_respelled {file : MetadataText} {depth : Nat}
    (h : (Block.mapping (file.entries p)).isReadable depth = true) :
    (Block.mapping (file.entries q)).isReadable depth = true := by
  have hsectionKey : ∀ a, (MetadataText.sectionEntry p a).1 = (MetadataText.sectionEntry q a).1 :=
    fun _ => rfl
  have hdefinitionsKey : ∀ ds,
      (MetadataText.definitionsEntry p ds).1 = (MetadataText.definitionsEntry q ds).1 :=
    fun _ => rfl
  refine FieldText.isReadable_block hsectionKey ?_ h
  intro a inner hsection
  refine FieldText.isReadable_block hdefinitionsKey ?_ hsection
  intro ds inner hdefinitions
  refine Block.isReadable_mapping_map ?_ ?_ hdefinitions
  · exact fun _ => rfl
  · intro d inner hdefinition
    refine FieldText.isReadable_block ?_ (isReadable_definitionField q) hdefinition
    intro field
    cases field <;> rfl

end Respelling

/-! ## Shown and written -/

namespace TextScalar

/-- The text that is written. -/
def content (s : TextScalar) : Text :=
  s.spelling.content

theorem isQuotable_content (s : TextScalar) : isQuotable s.content = true := by
  have hwritable := s.writable
  unfold content
  cases hspelling : s.spelling with
  | plain t =>
      rw [hspelling] at hwritable
      exact isQuotable_of_isPlainToken hwritable
  | quoted t =>
      rw [hspelling] at hwritable
      exact hwritable

/-- The scalar in quotes. -/
def quoted (s : TextScalar) : TextScalar where
  spelling := .quoted s.content
  writable := s.isQuotable_content
  isText := rfl

/-- Whether the scalar is shown as it is written. -/
def isCanonical (s : TextScalar) : Bool :=
  match s.spelling with
  | .plain t => Scalar.isCanonical t
  | .quoted _ => true

theorem shown_quoted (s : TextScalar) : s.quoted.shown = s.content :=
  rfl

/-- A scalar is shown as it is written exactly if it is canonical. -/
theorem shown_eq_content_iff (s : TextScalar) : s.shown = s.content ↔ s.isCanonical = true := by
  obtain ⟨hvalue, hnull⟩ := s.value?_eq
  unfold shown content isCanonical
  cases hspelling : s.spelling with
  | plain t =>
      rw [hspelling] at hvalue
      exact Scalar.textOf_resolve_eq_iff hvalue hnull
  | quoted t =>
      rw [hspelling] at hvalue
      have hstring : Value.string t = s.value := Option.some.inj hvalue
      rw [← hstring]
      exact iff_of_true rfl rfl

end TextScalar

/-! ## Visible scalars -/

/-- The scalars that are visible in the record of a setter. -/
def SetterText.visible (description : Option TextScalar) (d : SetterText) : List TextScalar :=
  d.name.toList ++ (if d.listValues.isEmpty then d.value.toList else []) ++ d.listValues ++
    d.setBy.toList ++ description.toList

/-- The scalars that are visible in the record of a substitution. -/
def SubstitutionText.visible (d : SubstitutionText) : List TextScalar :=
  d.name.toList ++ d.pattern.toList ++ d.references

/-- The scalars that are visible in the records of a definition. -/
def DefinitionText.visible (d : DefinitionText) : List TextScalar :=
  (d.extension.bind (·.setter)).elim [] (SetterText.visible d.description) ++
    (d.extension.bind (·.substitution)).elim [] SubstitutionText.visible

/-- The scalars that are visible in the records of a file. -/
def MetadataText.visible (file : MetadataText) : List TextScalar :=
  file.definitions.flatMap fun d => (DefinitionText.ofFields d.fields).visible

section Visible

variable (f g : TextScalar → Text)

theorem getD_map_eq_iff (o : Option TextScalar) (t : Text) :
    (o.map f).getD t = (o.map g).getD t ↔ ∀ s ∈ o.toList, f s = g s := by
  cases o <;> simp

theorem setterRecord_eq_iff (key : Text) (description : Option TextScalar) (d : SetterText) :
    d.record f key description = d.record g key description ↔
      ∀ s ∈ d.visible description, f s = g s := by
  have hvalue : (if d.listValues.isEmpty then (d.value.map f).getD [] else []) =
      (if d.listValues.isEmpty then (d.value.map g).getD [] else []) ↔
      ∀ s ∈ (if d.listValues.isEmpty then d.value.toList else []), f s = g s := by
    split
    · exact getD_map_eq_iff f g d.value []
    · simp
  simp only [SetterText.record, Setter.mk.injEq, SetterText.visible, List.forall_mem_append,
    getD_map_eq_iff f g, hvalue, List.map_inj_left, true_and]
  tauto

theorem substitutionRecord_eq_iff (key : Text) (d : SubstitutionText) :
    d.record f key = d.record g key ↔ ∀ s ∈ d.visible, f s = g s := by
  simp only [SubstitutionText.record, Substitution.mk.injEq, SubstitutionText.visible,
    List.forall_mem_append, getD_map_eq_iff f g, List.map_inj_left]
  tauto

theorem definitionRecords_eq_iff (key : Text) (d : DefinitionText) :
    d.records f key = d.records g key ↔ ∀ s ∈ d.visible, f s = g s := by
  have hsetter := setterRecord_eq_iff f g key d.description
  have hsubstitution := substitutionRecord_eq_iff f g key
  simp only [DefinitionText.records, Records.mk.injEq, DefinitionText.visible,
    List.forall_mem_append]
  refine and_congr ?_ ?_
  · cases d.extension.bind (·.setter) with
    | none => simp
    | some setter => simpa using hsetter setter
  · cases d.extension.bind (·.substitution) with
    | none => simp
    | some substitution => simpa using hsubstitution substitution

theorem length_records (key : Text) (d : DefinitionText) :
    (d.records f key).setters.length = (d.records g key).setters.length ∧
      (d.records f key).substitutions.length = (d.records g key).substitutions.length := by
  unfold DefinitionText.records
  cases d.extension.bind (·.setter) <;> cases d.extension.bind (·.substitution) <;> exact ⟨rfl, rfl⟩

theorem records_ext_iff {r r' : Records} :
    r = r' ↔ r.setters = r'.setters ∧ r.substitutions = r'.substitutions := by
  cases r
  cases r'
  simp

/-- Lists that are joined from parts of the same lengths are the same if all parts are. -/
theorem flatMap_eq_iff {α β : Type} {F G : α → List β}
    (hlength : ∀ x, (F x).length = (G x).length) {xs : List α} :
    xs.flatMap F = xs.flatMap G ↔ ∀ x ∈ xs, F x = G x := by
  induction xs with
  | nil => simp
  | cons x xs ih =>
      rw [List.flatMap_cons, List.flatMap_cons, List.forall_mem_cons, ← ih]
      constructor
      · intro h
        exact List.append_inj h (hlength x)
      · rintro ⟨hhere, hrest⟩
        rw [hhere, hrest]

/-- The records of a file are the same exactly if all scalars that are visible in them are
rendered alike. -/
theorem records_eq_iff (file : MetadataText) :
    file.records f = file.records g ↔ ∀ s ∈ file.visible, f s = g s := by
  have hlength := fun d : DefinitionEntry =>
    length_records f g d.key (DefinitionText.ofFields d.fields)
  calc
    file.records f = file.records g ↔
        ∀ d ∈ file.definitions, (DefinitionText.ofFields d.fields).records f d.key =
          (DefinitionText.ofFields d.fields).records g d.key := by
      simp only [MetadataText.records, flatMap_eq_iff fun d => (hlength d).1,
        flatMap_eq_iff fun d => (hlength d).2, records_ext_iff, ← forall_and]
    _ ↔ ∀ s ∈ file.visible, f s = g s := by
      simp only [definitionRecords_eq_iff, MetadataText.visible, List.forall_mem_flatMap]

end Visible

/-! ## Files with their scalars in quotes -/

/-- How the records of a file follow from the texts of its scalars. -/
structure IsReadAsShown (path : Text) (file : MetadataText) : Prop where
  /-- Every scalar is shown, whatever the layout. -/
  plain : ∀ t, file.IsTextOf id t → parse path t = .ok (file.records TextScalar.shown)
  /-- In quotes, every scalar is kept as it is written. -/
  quoted : ∀ t, file.IsTextOf TextScalar.quoted t →
    parse path t = .ok (file.records TextScalar.content)
  /-- Both have a text. -/
  texts : file.IsTextOf id (file.text id) ∧
    file.IsTextOf TextScalar.quoted (file.text TextScalar.quoted)
  /-- What is shown of a scalar is what is written exactly if it is canonical. -/
  scalar_iff : ∀ s : TextScalar, s.shown = s.content ↔ s.isCanonical = true
  /-- Without quotes, the records are the same exactly if all visible scalars are canonical. -/
  file_iff : ∀ t t', file.IsTextOf id t → file.IsTextOf TextScalar.quoted t' →
    (parse path t = parse path t' ↔ ∀ s ∈ file.visible, s.isCanonical = true)

/-- A file is read as it is written, in quotes or without them, if its visible scalars are
canonical, and not otherwise. -/
theorem parse_quoted (path : Text) {file : MetadataText}
    (h : (Block.mapping (file.entries id)).isReadable deepestNesting = true) :
    IsReadAsShown path file := by
  have hrespelled : (Block.mapping (file.entries TextScalar.quoted)).isReadable deepestNesting =
      true := isReadable_respelled TextScalar.quoted h
  have hplain : ∀ t, file.IsTextOf id t → parse path t = .ok (file.records TextScalar.shown) :=
    fun _ ht => MetadataText.parse_file id path h ht
  have hquoted : ∀ t, file.IsTextOf TextScalar.quoted t →
      parse path t = .ok (file.records TextScalar.content) := by
    intro t ht
    have hparse := MetadataText.parse_file TextScalar.quoted path hrespelled ht
    simpa only [TextScalar.shown_quoted] using hparse
  refine ⟨hplain, hquoted, ⟨MetadataText.isTextOf_text id h,
    MetadataText.isTextOf_text TextScalar.quoted hrespelled⟩, TextScalar.shown_eq_content_iff, ?_⟩
  intro t t' ht ht'
  rw [hplain t ht, hquoted t' ht', Except.ok.injEq, records_eq_iff]
  simp only [TextScalar.shown_eq_content_iff]

/-- A version number, spelled as a decimal fraction is. -/
def versionScalar : TextScalar where
  spelling := .plain "1.10".toList
  writable := by decide
  isText := by decide +kernel

/-- The reference to the version, which has to be quoted. -/
def versionReference : TextScalar where
  spelling := .quoted "#/definitions/io.k8s.cli.setters.version".toList
  writable := by decide
  isText := rfl

/-- The definition that sets the version. -/
def versionDefinition : DefinitionEntry where
  key := "io.k8s.cli.setters.version".toList
  fields := [.known (.extension [.known (.setter [.known (.value versionScalar)])])]

/-- A definition with the version as its component, and with fields that do not matter. -/
def imageDefinition : DefinitionEntry where
  key := "io.k8s.cli.substitutions.image".toList
  fields :=
    [.other ⟨"type".toList, .scalar (.plain "string".toList), by decide⟩,
      .known (.extension [.known (.substitution
        [.known (.values [⟨[⟨"marker".toList, .scalar (.plain "VERSION".toList), by decide⟩],
          versionReference, []⟩])])])]

/-- The file with some definitions and nothing else. -/
def fileOf (ds : List DefinitionEntry) : MetadataText :=
  ⟨⟨[], ⟨[], ds, []⟩, []⟩⟩

/-- The records of a file with a setter and a substitution are read as they are shown. -/
theorem parse_quoted_image :
    (Block.mapping ((fileOf [versionDefinition, imageDefinition]).entries id)).isReadable
        deepestNesting = true ∧
      IsReadAsShown "pkg/Krmfile".toList (fileOf [versionDefinition, imageDefinition]) := by
  have hreadable : (Block.mapping ((fileOf [versionDefinition, imageDefinition]).entries
      id)).isReadable deepestNesting = true := by
    decide +kernel
  exact ⟨hreadable, parse_quoted "pkg/Krmfile".toList hreadable⟩

/-- The version is shown without its last zero, unless it is quoted. -/
theorem version_loses_zero :
    (fileOf [versionDefinition]).text id =
        ("openAPI:\n".toList ++
          "  definitions:\n".toList ++
          "    io.k8s.cli.setters.version:\n".toList ++
          "      x-k8s-cli:\n".toList ++
          "        setter:\n".toList ++
          "          value: 1.10\n".toList) ∧
      parse "pkg/Krmfile".toList ((fileOf [versionDefinition]).text id) =
        .ok { setters := [{ name := "version".toList, value := "1.1".toList }] } ∧
      parse "pkg/Krmfile".toList ((fileOf [versionDefinition]).text TextScalar.quoted) =
        .ok { setters := [{ name := "version".toList, value := "1.10".toList }] } := by
  decide +kernel

end Metadata

end SetterReport
