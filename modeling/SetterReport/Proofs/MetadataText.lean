import SetterReport.Proofs.BlockDocument
import SetterReport.Proofs.DefinitionSplit

/-!
# Metadata files in block style

A metadata file as it is written: its definitions, each with its fields in any order, and other
fields wherever they may stand, which are passed over.  All texts are scalars on one line, plain
or quoted; how each is spelled is left to a parameter, so that one file can be compared with the
same file spelled in another way.

A mapping is read field by field, and each field sets a part of what is read (`read_fields`).  So
the reading of a file is followed from its setters and components up to its definitions.

## Main result

* `parse_file` — the records that are read from the text of a file.
-/

namespace SetterReport.Metadata

open Yaml

/-! ## Texts -/

/-- Whether a scalar is neither null nor refused, as an integer of more than 64 bits is. -/
def isText (s : Spelling) : Bool :=
  match s.value? with
  | none => false
  | some .null => false
  | some _ => true

/-- A scalar that is written on one line, and is neither refused nor null. -/
structure TextScalar where
  spelling : Spelling
  writable : spelling.isWritable = true
  isText : isText spelling = true

namespace TextScalar

/-- The value that is loaded. -/
def value (s : TextScalar) : Value :=
  s.spelling.value?.getD .null

/-- The text that is seen of the value. -/
def shown (s : TextScalar) : Text :=
  textOf s.value

/-- The scalar as a document. -/
def block (s : TextScalar) : Block :=
  .scalar s.spelling

theorem value?_eq (s : TextScalar) : s.spelling.value? = some s.value ∧ s.value ≠ .null := by
  have htext := s.isText
  unfold Metadata.isText at htext
  unfold value
  cases hvalue : s.spelling.value? with
  | none => simp [hvalue] at htext
  | some v =>
      refine ⟨rfl, ?_⟩
      rintro rfl
      simp [hvalue] at htext

/-- As the value is not null, a field with it is there. -/
theorem map_anyOptional {ρ : Type} (s : TextScalar) (put : Option Value → ρ) :
    (anyOptional s.value).map put = .ok (put (some s.value)) := by
  unfold anyOptional optional
  split
  · rename_i hnull
    exact absurd hnull s.value?_eq.2
  · rfl

theorem isReadable_block (s : TextScalar) (depth : Nat) : s.block.isReadable depth = true := by
  simp [block, Block.isReadable, s.writable, s.value?_eq.1]

end TextScalar

/-! ## Fields -/

/-- A field that is none of the known ones. -/
structure OtherField (names : List Text) where
  name : Text
  block : Block
  unknown : name ∉ names

/-- A field of a mapping as it is written. -/
inductive FieldText (names : List Text) (α : Type)
  | known (x : α)
  | other (o : OtherField names)

namespace FieldText

variable {names : List Text} {α : Type}

/-- The entry of a field. -/
def entry (entryOf : α → Text × Block) : FieldText names α → Text × Block
  | known x => entryOf x
  | other o => (o.name, o.block)

/-- The fields that are known. -/
def knowns : List (FieldText names α) → List α
  | [] => []
  | known x :: rest => x :: knowns rest
  | other _ :: rest => knowns rest

/-- The entries of a mapping. -/
def entries (entryOf : α → Text × Block) (fs : List (FieldText names α)) : List (Text × Block) :=
  fs.map (entry entryOf)

/-- The mapping with some fields. -/
def block (entryOf : α → Text × Block) (fs : List (FieldText names α)) : Block :=
  .mapping (entries entryOf fs)

end FieldText

/-- A field that has to be there, and the other ones before and after it. -/
structure Around (names : List Text) (α : Type) where
  before : List (OtherField names)
  inner : α
  after : List (OtherField names)

namespace Around

variable {names : List Text} {α : Type}

/-- All fields, one after the other. -/
def fields (a : Around names α) : List (FieldText names α) :=
  a.before.map .other ++ .known a.inner :: a.after.map .other

@[simp]
theorem knowns_others (os : List (OtherField names)) (fs : List (FieldText names α)) :
    FieldText.knowns (os.map .other ++ fs) = FieldText.knowns fs := by
  induction os with
  | nil => rfl
  | cons o os ih => exact ih

@[simp]
theorem knowns_fields (a : Around names α) : FieldText.knowns a.fields = [a.inner] := by
  have hafter := knowns_others a.after ([] : List (FieldText names α))
  rw [List.append_nil] at hafter
  simp [fields, FieldText.knowns, hafter]

theorem entry_mem (entryOf : α → Text × Block) (a : Around names α) :
    entryOf a.inner ∈ FieldText.entries entryOf a.fields := by
  simp [FieldText.entries, fields, FieldText.entry]

/-- In a mapping that is readable, so is what the field holds that has to be there. -/
theorem isReadable_inner {entryOf : α → Text × Block} {a : Around names α} {depth : Nat}
    (h : (FieldText.block entryOf a.fields).isReadable depth = true) :
    ∃ inner, (entryOf a.inner).2.isReadable inner = true := by
  obtain ⟨inner, -, -, -, hentries⟩ := Block.isReadable_mapping_iff.1 h
  exact ⟨inner, (hentries _ (entry_mem entryOf a)).2⟩

end Around

/-! ## Reading fields -/

section Reading

variable {α σ ρ : Type} {f : Fields ρ} {entryOf : α → Text × Block} (toRecord : σ → ρ)
  (set : σ → α → σ)

/-- Fields with distinct names are read one after the other, and other ones passed over. -/
theorem readFrom_fields (hnames : ∀ x, (entryOf x).1 ∈ f.names) {depth : Nat}
    (htake : ∀ s x, (entryOf x).2.isReadable depth = true →
      f.take (toRecord s) (entryOf x).1 (entryOf x).2.value = .ok (toRecord (set s x)))
    {fs : List (FieldText f.names α)}
    (hdistinct : ((FieldText.entries entryOf fs).map (·.1)).Nodup)
    (hreadable : ∀ e ∈ FieldText.entries entryOf fs, e.2.isReadable depth = true)
    {seen : List Text} (hseen : ∀ e ∈ FieldText.entries entryOf fs, e.1 ∉ seen) (s : σ) :
    f.readFrom seen (toRecord s) (Block.entriesValues (FieldText.entries entryOf fs)) =
      .ok (toRecord ((FieldText.knowns fs).foldl set s)) := by
  induction fs generalizing seen s with
  | nil => rfl
  | cons field fs ih =>
      obtain ⟨hother, hdistinctRest⟩ := List.nodup_cons.1 hdistinct
      obtain ⟨hhere, hreadableRest⟩ := List.forall_mem_cons.1 hreadable
      obtain ⟨hnew, hseenRest⟩ := List.forall_mem_cons.1 hseen
      have hkey : ∀ name, stringOf? (.string name) = some name := fun _ => rfl
      cases field with
      | known x =>
          -- As the names are distinct, that of the field may count as seen from here on.
          have hnewRest : ∀ e ∈ FieldText.entries entryOf fs, e.1 ∉ (entryOf x).1 :: seen := by
            intro e he hmem
            rcases List.mem_cons.1 hmem with hsame | hmem
            · exact hother (List.mem_map.2 ⟨e, he, hsame⟩)
            · exact hseenRest e he hmem
          have hrest := ih hdistinctRest hreadableRest hnewRest (set s x)
          show f.readFrom seen (toRecord s) ((.string (entryOf x).1, (entryOf x).2.value) ::
            Block.entriesValues (FieldText.entries entryOf fs)) = _
          replace hnew : (entryOf x).1 ∉ seen := hnew
          simp [Fields.readFrom, hkey, hnames x, hnew, htake s x hhere, hrest, FieldText.knowns]
      | other o =>
          have hrest := ih hdistinctRest hreadableRest hseenRest s
          show f.readFrom seen (toRecord s) ((.string o.name, o.block.value) ::
            Block.entriesValues (FieldText.entries entryOf fs)) = _
          simp [Fields.readFrom, hkey, o.unknown, hrest, FieldText.knowns]

/-- A mapping is read as what its fields set one after the other. -/
theorem read_fields (hnames : ∀ x, (entryOf x).1 ∈ f.names) {fs : List (FieldText f.names α)}
    (htake : ∀ depth s x, (entryOf x).2.isReadable depth = true →
      f.take (toRecord s) (entryOf x).1 (entryOf x).2.value = .ok (toRecord (set s x)))
    {depth : Nat} (h : (FieldText.block entryOf fs).isReadable depth = true) (s : σ) :
    f.read (toRecord s) (FieldText.block entryOf fs).value =
      .ok (toRecord ((FieldText.knowns fs).foldl set s)) := by
  obtain ⟨inner, -, -, hdistinct, hentries⟩ := Block.isReadable_mapping_iff.1 h
  exact readFrom_fields toRecord set hnames (htake inner) hdistinct (fun e he => (hentries e he).2) (by simp) s

end Reading

/-! ## Setters -/

/-- A field of a setter. -/
inductive SetterField
  | name (s : TextScalar)
  | value (s : TextScalar)
  | listValues (items : List TextScalar)
  | setBy (s : TextScalar)
  | required (isRequired : Bool)

/-- What is said of a setter. -/
structure SetterText where
  name : Option TextScalar := none
  value : Option TextScalar := none
  listValues : List TextScalar := []
  setBy : Option TextScalar := none
  required : Bool := false

section Setters

variable (spell : TextScalar → TextScalar)

/-- The entry of a field of a setter. -/
def SetterField.entry : SetterField → Text × Block
  | name s => ("name".toList, (spell s).block)
  | value s => ("value".toList, (spell s).block)
  | listValues items => ("listValues".toList, .sequence (items.map fun s => (spell s).block))
  | setBy s => ("setBy".toList, (spell s).block)
  | required b => ("required".toList, .scalar (.plain (if b then "true".toList else "false".toList)))

/-- The fields of a setter as they are written. -/
abbrev SetterFields := List (FieldText SetterDeclaration.fields.names SetterField)

namespace SetterText

/-- What is said when one more field is. -/
def set (d : SetterText) : SetterField → SetterText
  | .name s => { d with name := some s }
  | .value s => { d with value := some s }
  | .listValues items => { d with listValues := items }
  | .setBy s => { d with setBy := some s }
  | .required b => { d with required := b }

/-- What fields say of a setter. -/
def ofFields (fs : SetterFields) : SetterText :=
  (FieldText.knowns fs).foldl set {}

/-- The declaration that is read. -/
def declaration (d : SetterText) : SetterDeclaration where
  name := d.name.map fun s => (spell s).value
  value := d.value.map fun s => (spell s).value
  listValues := d.listValues.map fun s => (spell s).value
  setBy := d.setBy.map fun s => (spell s).value
  required := d.required

/-- The record of a setter, given how a scalar is rendered. -/
def record (render : TextScalar → Text) (key : Text) (description : Option TextScalar)
    (d : SetterText) : Setter where
  name := (d.name.map render).getD (Reference.nameOfKey Reference.setterKind key)
  value := if d.listValues.isEmpty then (d.value.map render).getD [] else []
  listValues := d.listValues.map render
  setBy := (d.setBy.map render).getD []
  description := (description.map render).getD []
  count := 0
  required := d.required

end SetterText

theorem resolve_truth (b : Bool) :
    Scalar.resolve (if b then "true".toList else "false".toList) = some (.bool b) := by
  cases b with
  | false =>
      have hnull : Scalar.nulls.contains "false".toList = false := by decide
      have htruth : Scalar.truth? "false".toList = some false := by decide
      show Scalar.resolve "false".toList = _
      unfold Scalar.resolve
      simp only [hnull, htruth, Bool.false_eq_true, if_false]
  | true =>
      have hnull : Scalar.nulls.contains "true".toList = false := by decide
      have htruth : Scalar.truth? "true".toList = some true := by decide
      show Scalar.resolve "true".toList = _
      unfold Scalar.resolve
      simp only [hnull, htruth, Bool.false_eq_true, if_false]

theorem SetterField.name_mem (x : SetterField) :
    (x.entry spell).1 ∈ SetterDeclaration.fields.names :=
  match x with
  | .name _ => .head _
  | .value _ => .tail _ (.head _)
  | .listValues _ => .tail _ (.tail _ (.head _))
  | .setBy _ => .tail _ (.tail _ (.tail _ (.head _)))
  | .required _ => .tail _ (.tail _ (.tail _ (.tail _ (.head _))))

/-- A setter is read as what its fields say. -/
theorem read_setter {fs : SetterFields} {depth : Nat}
    (h : (FieldText.block (SetterField.entry spell) fs).isReadable depth = true) :
    SetterDeclaration.read (FieldText.block (SetterField.entry spell) fs).value =
      .ok ((SetterText.ofFields fs).declaration spell) := by
  refine read_fields (SetterText.declaration spell) SetterText.set (SetterField.name_mem spell)
    ?_ h {}
  -- What is left is that each field sets its own part of the declaration.
  intro _ d x _
  cases x with
  | name s => exact (spell s).map_anyOptional _
  | value s => exact (spell s).map_anyOptional _
  | listValues items =>
      show Except.ok _ = _
      rw [Block.itemsValues_eq_map, List.map_map]
      rfl
  | setBy s => exact (spell s).map_anyOptional _
  | required b =>
      show (truthOf ((Scalar.resolve (if b then "true".toList else "false".toList)).getD
        .null)).map _ = _
      rw [resolve_truth]
      rfl

end Setters

/-! ## Substitutions -/

/-- A component of a substitution: its reference. -/
abbrev ComponentText := Around componentFields.names TextScalar

/-- A field of a substitution. -/
inductive SubstitutionField
  | name (s : TextScalar)
  | pattern (s : TextScalar)
  | values (components : List ComponentText)

/-- What is said of a substitution. -/
structure SubstitutionText where
  name : Option TextScalar := none
  pattern : Option TextScalar := none
  references : List TextScalar := []

section Substitutions

variable (spell : TextScalar → TextScalar)

/-- The entry of a reference. -/
def referenceEntry (s : TextScalar) : Text × Block :=
  (referenceField, (spell s).block)

/-- A component as a document. -/
def componentBlock (c : ComponentText) : Block :=
  FieldText.block (referenceEntry spell) c.fields

/-- The entry of a field of a substitution. -/
def SubstitutionField.entry : SubstitutionField → Text × Block
  | name s => ("name".toList, (spell s).block)
  | pattern s => ("pattern".toList, (spell s).block)
  | values components => ("values".toList, .sequence (components.map (componentBlock spell)))

/-- The fields of a substitution as they are written. -/
abbrev SubstitutionFields := List (FieldText SubstitutionDeclaration.fields.names SubstitutionField)

namespace SubstitutionText

/-- What is said when one more field is. -/
def set (d : SubstitutionText) : SubstitutionField → SubstitutionText
  | .name s => { d with name := some s }
  | .pattern s => { d with pattern := some s }
  | .values components => { d with references := components.map (·.inner) }

/-- What fields say of a substitution. -/
def ofFields (fs : SubstitutionFields) : SubstitutionText :=
  (FieldText.knowns fs).foldl set {}

/-- The declaration that is read. -/
def declaration (d : SubstitutionText) : SubstitutionDeclaration where
  name := d.name.map fun s => (spell s).value
  pattern := d.pattern.map fun s => (spell s).value
  values := d.references.map fun s => (spell s).value

/-- The record of a substitution, given how a scalar is rendered. -/
def record (render : TextScalar → Text) (key : Text) (d : SubstitutionText) : Substitution where
  name := (d.name.map render).getD (Reference.nameOfKey Reference.substitutionKind key)
  pattern := (d.pattern.map render).getD []
  references := d.references.map render

end SubstitutionText

theorem read_component {c : ComponentText} {depth : Nat}
    (h : (componentBlock spell c).isReadable depth = true) :
    readComponent (componentBlock spell c).value = .ok (spell c.inner).value := by
  have hnames : ∀ s, (referenceEntry spell s).1 ∈ componentFields.names := fun _ => .head _
  have hread := read_fields (Option.map fun s => (spell s).value) (fun _ s => some s) hnames
    (fun _ _ _ _ => rfl) h none
  rw [Around.knowns_fields] at hread
  unfold readComponent
  rw [show componentFields.read none (componentBlock spell c).value = _ from hread]
  rfl

/-- Items that can be read are read one after the other. -/
theorem readAll_map {α β : Type} {read : Value → Shaped α} {toValue : β → Value} {result : β → α}
    {xs : List β} (h : ∀ x ∈ xs, read (toValue x) = .ok (result x)) :
    readAll read (xs.map toValue) = .ok (xs.map result) := by
  induction xs with
  | nil => rfl
  | cons x xs ih =>
      obtain ⟨hhere, hrest⟩ := List.forall_mem_cons.1 h
      rw [List.map_cons, readAll, hhere]
      simp only [ih hrest]
      rfl

theorem SubstitutionField.name_mem (x : SubstitutionField) :
    (x.entry spell).1 ∈ SubstitutionDeclaration.fields.names :=
  match x with
  | .name _ => .head _
  | .pattern _ => .tail _ (.head _)
  | .values _ => .tail _ (.tail _ (.head _))

/-- A substitution is read as what its fields say. -/
theorem read_substitution {fs : SubstitutionFields} {depth : Nat}
    (h : (FieldText.block (SubstitutionField.entry spell) fs).isReadable depth = true) :
    SubstitutionDeclaration.read (FieldText.block (SubstitutionField.entry spell) fs).value =
      .ok ((SubstitutionText.ofFields fs).declaration spell) := by
  refine read_fields (SubstitutionText.declaration spell) SubstitutionText.set
    (SubstitutionField.name_mem spell) ?_ h {}
  intro depth d x hreadable
  cases x with
  | name s => exact (spell s).map_anyOptional _
  | pattern s => exact (spell s).map_anyOptional _
  | values components =>
      obtain ⟨inner, -, -, hitems⟩ := Block.isReadable_sequence_iff.1 hreadable
      have hcomponents : ∀ c ∈ components,
          readComponent (componentBlock spell c).value = .ok (spell c.inner).value := by
        intro c hc
        exact read_component spell (hitems _ (List.mem_map_of_mem hc))
      have hread : readAll readComponent
          (Block.itemsValues (components.map (componentBlock spell))) =
          .ok (components.map fun c => (spell c.inner).value) := by
        rw [Block.itemsValues_eq_map, List.map_map]
        exact readAll_map hcomponents
      show (readAll readComponent
        (Block.itemsValues (components.map (componentBlock spell)))).map _ = _
      rw [hread]
      simp [Except.map, SubstitutionText.declaration, SubstitutionText.set]

end Substitutions

/-! ## Definitions -/

/-- A field of an extension. -/
inductive ExtensionField
  | setter (fields : SetterFields)
  | substitution (fields : SubstitutionFields)

/-- What is said in an extension. -/
structure ExtensionText where
  setter : Option SetterText := none
  substitution : Option SubstitutionText := none

/-- The fields of an extension as they are written. -/
abbrev ExtensionFields := List (FieldText Extension.fields.names ExtensionField)

/-- A field of a definition. -/
inductive DefinitionField
  | description (s : TextScalar)
  | extension (fields : ExtensionFields)

/-- What is said in a definition. -/
structure DefinitionText where
  description : Option TextScalar := none
  extension : Option ExtensionText := none

/-- The fields of a definition as they are written. -/
abbrev DefinitionFields := List (FieldText Definition.fields.names DefinitionField)

section Definitions

variable (spell : TextScalar → TextScalar)

/-- The entry of a field of an extension. -/
def ExtensionField.entry : ExtensionField → Text × Block
  | setter fs => ("setter".toList, FieldText.block (SetterField.entry spell) fs)
  | substitution fs => ("substitution".toList, FieldText.block (SubstitutionField.entry spell) fs)

/-- The entry of a field of a definition. -/
def DefinitionField.entry : DefinitionField → Text × Block
  | description s => ("description".toList, (spell s).block)
  | extension fs => ("x-k8s-cli".toList, FieldText.block (ExtensionField.entry spell) fs)

namespace ExtensionText

/-- What is said when one more field is. -/
def set (e : ExtensionText) : ExtensionField → ExtensionText
  | .setter fs => { e with setter := some (SetterText.ofFields fs) }
  | .substitution fs => { e with substitution := some (SubstitutionText.ofFields fs) }

/-- What fields say in an extension. -/
def ofFields (fs : ExtensionFields) : ExtensionText :=
  (FieldText.knowns fs).foldl set {}

/-- The extension that is read. -/
def declaration (e : ExtensionText) : Extension where
  setter := e.setter.map (SetterText.declaration spell)
  substitution := e.substitution.map (SubstitutionText.declaration spell)

end ExtensionText

namespace DefinitionText

/-- What is said when one more field is. -/
def set (d : DefinitionText) : DefinitionField → DefinitionText
  | .description s => { d with description := some s }
  | .extension fs => { d with extension := some (ExtensionText.ofFields fs) }

/-- What fields say in a definition. -/
def ofFields (fs : DefinitionFields) : DefinitionText :=
  (FieldText.knowns fs).foldl set {}

/-- The definition that is read. -/
def declaration (d : DefinitionText) : Definition where
  description := d.description.map fun s => (spell s).value
  extension := d.extension.map (ExtensionText.declaration spell)

/-- The records of a definition, given how a scalar is rendered. -/
def records (render : TextScalar → Text) (key : Text) (d : DefinitionText) : Records where
  setters := ((d.extension.bind (·.setter)).map
    (SetterText.record render key d.description)).toList
  substitutions := ((d.extension.bind (·.substitution)).map
    (SubstitutionText.record render key)).toList

end DefinitionText

theorem optional_block {α β : Type} {names : List Text} (read : Value → Shaped α)
    (entryOf : β → Text × Block) (fs : List (FieldText names β)) :
    optional read (FieldText.block entryOf fs).value =
      (read (FieldText.block entryOf fs).value).map some :=
  rfl

theorem ExtensionField.name_mem (x : ExtensionField) :
    (x.entry spell).1 ∈ Extension.fields.names :=
  match x with
  | .setter _ => .head _
  | .substitution _ => .tail _ (.head _)

/-- An extension is read as what its fields say. -/
theorem read_extension {fs : ExtensionFields} {depth : Nat}
    (h : (FieldText.block (ExtensionField.entry spell) fs).isReadable depth = true) :
    Extension.read (FieldText.block (ExtensionField.entry spell) fs).value =
      .ok ((ExtensionText.ofFields fs).declaration spell) := by
  refine read_fields (ExtensionText.declaration spell) ExtensionText.set
    (ExtensionField.name_mem spell) ?_ h {}
  intro depth e x hreadable
  cases x with
  | setter fs =>
      show (optional SetterDeclaration.read
        (FieldText.block (SetterField.entry spell) fs).value).map _ = _
      rw [optional_block, read_setter spell hreadable]
      rfl
  | substitution fs =>
      show (optional SubstitutionDeclaration.read
        (FieldText.block (SubstitutionField.entry spell) fs).value).map _ = _
      rw [optional_block, read_substitution spell hreadable]
      rfl

theorem DefinitionField.name_mem (x : DefinitionField) :
    (x.entry spell).1 ∈ Definition.fields.names :=
  match x with
  | .description _ => .head _
  | .extension _ => .tail _ (.head _)

/-- A definition is read as what its fields say. -/
theorem read_definition {fs : DefinitionFields} {depth : Nat}
    (h : (FieldText.block (DefinitionField.entry spell) fs).isReadable depth = true) :
    Definition.read (FieldText.block (DefinitionField.entry spell) fs).value =
      .ok ((DefinitionText.ofFields fs).declaration spell) := by
  refine read_fields (DefinitionText.declaration spell) DefinitionText.set
    (DefinitionField.name_mem spell) ?_ h {}
  intro depth d x hreadable
  cases x with
  | description s => exact (spell s).map_anyOptional _
  | extension fs =>
      show (optional Extension.read
        (FieldText.block (ExtensionField.entry spell) fs).value).map _ = _
      rw [optional_block, read_extension spell hreadable]
      rfl

theorem optionalText_map (o : Option TextScalar) :
    optionalText (o.map fun s => (spell s).value) = (o.map fun s => (spell s).shown).getD [] := by
  cases o <;> rfl

theorem record_setterDeclaration (key : Text) (description : Option TextScalar) (d : SetterText) :
    SetterDeclaration.record key (description.map fun s => (spell s).value) (d.declaration spell) =
      d.record (fun s => (spell s).shown) key description := by
  simp only [SetterDeclaration.record, SetterText.record, SetterText.declaration,
    optionalText_map, Option.map_map, List.map_map, List.isEmpty_map]
  rfl

theorem record_substitutionDeclaration (key : Text) (d : SubstitutionText) :
    SubstitutionDeclaration.record key (d.declaration spell) =
      d.record (fun s => (spell s).shown) key := by
  simp only [SubstitutionDeclaration.record, SubstitutionText.record,
    SubstitutionText.declaration, optionalText_map, Option.map_map, List.map_map]
  rfl

theorem records_declaration (key : Text) (d : DefinitionText) :
    (d.declaration spell).records key = d.records (fun s => (spell s).shown) key := by
  have hsetter := record_setterDeclaration spell key d.description
  have hsubstitution := record_substitutionDeclaration spell key
  unfold Definition.records DefinitionText.records DefinitionText.declaration
  cases d.extension with
  | none => rfl
  | some e =>
      simp only [Option.map_some, Option.bind_some, ExtensionText.declaration, Option.map_map,
        Function.comp_def, hsetter, hsubstitution]

/-- The records of a definition are those of what its fields say. -/
theorem recordsOfEntry_text {key : Text} {fs : DefinitionFields} {depth : Nat}
    (h : (FieldText.block (DefinitionField.entry spell) fs).isReadable depth = true) :
    recordsOfEntry (.string key, (FieldText.block (DefinitionField.entry spell) fs).value) =
      .ok ((DefinitionText.ofFields fs).records (fun s => (spell s).shown) key) := by
  have hkey : stringOf? (.string key) = some key := rfl
  unfold recordsOfEntry
  simp only [hkey, read_definition spell h, records_declaration]

end Definitions

/-! ## Files -/

/-- A definition as it is written: its key and its fields. -/
structure DefinitionEntry where
  key : Text
  fields : DefinitionFields

/-- A metadata file as it is written: its definitions, and the other fields around them. -/
structure MetadataText where
  document : Around documentFields.names
    (Around documentFields.sectionFields.names (List DefinitionEntry))

namespace MetadataText

variable (spell : TextScalar → TextScalar)

/-- The definitions of a file. -/
def definitions (file : MetadataText) : List DefinitionEntry :=
  file.document.inner.inner

/-- The entries of definitions. -/
def definitionEntries (ds : List DefinitionEntry) : List (Text × Block) :=
  ds.map fun d => (d.key, FieldText.block (DefinitionField.entry spell) d.fields)

/-- The entry of the definitions in their section. -/
def definitionsEntry (ds : List DefinitionEntry) : Text × Block :=
  ("definitions".toList, .mapping (definitionEntries spell ds))

/-- The entry of the section in the document. -/
def sectionEntry (a : Around documentFields.sectionFields.names (List DefinitionEntry)) :
    Text × Block :=
  ("openAPI".toList, FieldText.block (definitionsEntry spell) a.fields)

/-- The entries of the document, given how its scalars are spelled. -/
def entries (file : MetadataText) : List (Text × Block) :=
  FieldText.entries (sectionEntry spell) file.document.fields

/-- The text of the file, given how its scalars are spelled. -/
def text (file : MetadataText) : Text :=
  Block.documentText (file.entries spell)

/-- Whether a text is one of the file: in the layout above or in another one, its tree is the
same. -/
def IsTextOf (file : MetadataText) (t : Text) : Prop :=
  Node.read t = some (Block.mapping (file.entries spell)).node

/-- The records of the file, given how a scalar is rendered. -/
def records (render : TextScalar → Text) (file : MetadataText) : Records where
  setters := file.definitions.flatMap fun d =>
    ((DefinitionText.ofFields d.fields).records render d.key).setters
  substitutions := file.definitions.flatMap fun d =>
    ((DefinitionText.ofFields d.fields).records render d.key).substitutions

theorem read_section {a : Around documentFields.sectionFields.names (List DefinitionEntry)}
    {depth : Nat} (h : (FieldText.block (definitionsEntry spell) a.fields).isReadable depth = true) :
    documentFields.sectionOf (FieldText.block (definitionsEntry spell) a.fields).value =
      .ok (Block.entriesValues (definitionEntries spell a.inner)) := by
  have hnames : ∀ ds, (definitionsEntry spell ds).1 ∈ documentFields.sectionFields.names :=
    fun _ => .head _
  have hread := read_fields (fun ds => Block.entriesValues (definitionEntries spell ds))
    (fun _ ds => ds) hnames (fun _ _ _ _ => rfl) h []
  rwa [Around.knowns_fields] at hread

/-- The definitions of a document are those of its file. -/
theorem definitionsOf_text {file : MetadataText} {depth : Nat}
    (h : (Block.mapping (file.entries spell)).isReadable depth = true) :
    definitionsOf (Block.mapping (file.entries spell)).value =
      .ok (Block.entriesValues (definitionEntries spell file.definitions)) := by
  have hnames : ∀ a, (sectionEntry spell a).1 ∈ documentFields.names := fun _ => .head _
  have hread := read_fields
    (Option.map fun a : Around documentFields.sectionFields.names (List DefinitionEntry) =>
      Block.entriesValues (definitionEntries spell a.inner))
    (fun _ a => some a) hnames ?_ h none
  · rw [Around.knowns_fields] at hread
    unfold definitionsOf
    rw [show documentFields.read none (Block.mapping (file.entries spell)).value = _ from hread]
    rfl
  · intro _ _ a hreadable
    show optional documentFields.sectionOf (FieldText.block (definitionsEntry spell) a.fields).value
      = _
    rw [optional_block, read_section spell hreadable]
    rfl

theorem isReadable_definitions {file : MetadataText} {depth : Nat}
    (h : (Block.mapping (file.entries spell)).isReadable depth = true) :
    ∃ inner, ∀ d ∈ file.definitions,
      (FieldText.block (DefinitionField.entry spell) d.fields).isReadable inner = true := by
  obtain ⟨_, hsection⟩ := Around.isReadable_inner h
  obtain ⟨_, hdefinitions⟩ := Around.isReadable_inner hsection
  obtain ⟨inner, -, -, -, hentries⟩ := Block.isReadable_mapping_iff.1 hdefinitions
  exact ⟨inner, fun d hd => (hentries _ (List.mem_map_of_mem hd)).2⟩

/-- The text of a file is one of its texts. -/
theorem isTextOf_text {file : MetadataText} {depth : Nat}
    (h : (Block.mapping (file.entries spell)).isReadable depth = true) :
    file.IsTextOf spell (file.text spell) :=
  Block.read_documentText (Block.isWritable_and_isLoadable h).1

/-- The records of a file are those of what its definitions say. -/
theorem parse_file (path : Text) {file : MetadataText}
    (h : (Block.mapping (file.entries spell)).isReadable deepestNesting = true) {t : Text}
    (ht : file.IsTextOf spell t) :
    parse path t = .ok (file.records fun s => (spell s).shown) := by
  obtain ⟨inner, hreadable⟩ := isReadable_definitions spell h
  have hentries : List.Forall₂ (fun e r => recordsOfEntry e = .ok r)
      (Block.entriesValues (definitionEntries spell file.definitions))
      (file.definitions.map fun d =>
        (DefinitionText.ofFields d.fields).records (fun s => (spell s).shown) d.key) := by
    rw [Block.entriesValues_eq_map, definitionEntries, List.map_map, List.forall₂_map_left_iff,
      List.forall₂_map_right_iff, List.forall₂_same]
    intro d hd
    exact recordsOfEntry_text spell (hreadable d hd)
  have hvalue : ofValue (Block.mapping (file.entries spell)).value =
      .ok (file.records fun s => (spell s).shown) := by
    have hmapping : ∀ es, (Block.mapping es).value.untagged ≠ .null := by
      intro es
      simp [Block.value, Value.untagged]
    unfold ofValue
    split
    · rename_i hnull
      exact absurd hnull (hmapping _)
    · rw [definitionsOf_text spell h]
      simp only [recordsOfEntries_of_forall₂ hentries, records, List.flatMap_map]
  have hread := (Block.isWritable_and_isLoadable h).2.read_value ht
  rw [parse_eq_readDocument hread, readDocument, hvalue]
  rfl

end MetadataText

end SetterReport.Metadata
