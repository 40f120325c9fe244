import SetterReport.Proofs.ValuePlaces

/-!
# Replacing the content of a text field

The text fields of a definition may hold any value.  So the content of one that is present can
be replaced by any other value: the document is read as before, and of all records only that
one text may change.

The replacement is followed from the field outwards, one level of the document after the other.
At each level the record that is read has one part updated: a setter or a substitution
(`SetterTextField.read_put`, `SubstitutionTextField.read_put`), the extension around it, the
definition (`TextField.read_put`) and the definitions (`definitionsOf_put`).

## Main result

* `readDocument_put` — after a replacement in a definition, the records of the definitions
  before and after it are the same, and its own have the text of the new content in the one
  place.
-/

namespace SetterReport.Metadata

open Yaml

/-! ## Setters -/

/-- The text fields of a setter. -/
inductive SetterTextField
  | name
  | value
  | listValue (i : Nat)
  | setBy

namespace SetterTextField

/-- The key of the field. -/
def key : SetterTextField → Text
  | name => "name".toList
  | value => "value".toList
  | listValue _ => "listValues".toList
  | setBy => "setBy".toList

/-- The place of the field in a setter. -/
def steps (f : SetterTextField) : List Step :=
  .field f.key :: match f with
    | listValue i => [.item i]
    | _ => []

/-- The setter with another content of the field. -/
def put (x : Value) : SetterTextField → SetterDeclaration → SetterDeclaration
  | name, d => { d with name := present? x }
  | value, d => { d with value := present? x }
  | listValue i, d => { d with listValues := d.listValues.set i x }
  | setBy, d => { d with setBy := present? x }

/-- The text of a content of the field; without a name, the definition's key gives one. -/
def text (key : Text) (x : Value) : SetterTextField → Text
  | name => ((present? x).map textOf).getD (Reference.nameOfKey Reference.setterKind key)
  | _ => textOf x

/-- The record with another text of the field; one with list values keeps no scalar value. -/
def set (t : Text) : SetterTextField → Setter → Setter
  | name, s => { s with name := t }
  | value, s => if s.isList then s else { s with value := t }
  | listValue i, s => { s with listValues := s.listValues.set i t }
  | setBy, s => { s with setBy := t }

theorem steps_ne_nil (f : SetterTextField) : f.steps ≠ [] :=
  List.cons_ne_nil _ _

theorem key_mem_names (f : SetterTextField) :
    f.key ∈ SetterDeclaration.fields.names := by
  cases f with
  | listValue i => exact List.mem_of_elem_eq_true rfl
  | _ => decide

/-- The other fields of a setter do not see the change. -/
theorem take_put (f : SetterTextField) (x : Value) {n : Text} (hne : n ≠ f.key)
    (d : SetterDeclaration) (z : Value) :
    SetterDeclaration.fields.take (f.put x d) n z =
      (SetterDeclaration.fields.take d n z).map (f.put x) := by
  unfold SetterDeclaration.fields
  dsimp only
  split_ifs with hname hvalue hlist hby
  · cases anyOptional z <;> cases f <;>
      first | rfl | exact absurd (eq_of_beq hname) hne
  · cases anyOptional z <;> cases f <;>
      first | rfl | exact absurd (eq_of_beq hvalue) hne
  · cases sequenceOf z <;> cases f <;>
      first | rfl | exact absurd (eq_of_beq hlist) hne
  · cases anyOptional z <;> cases f <;>
      first | rfl | exact absurd (eq_of_beq hby) hne
  · cases truthOf z <;> cases f <;> rfl

theorem read_put (f : SetterTextField) {x v : Value} (hpresent : (at? v f.steps).isSome = true)
    {d : SetterDeclaration} (h : SetterDeclaration.read v = .ok d) :
    SetterDeclaration.read (Metadata.put x f.steps v) = .ok (f.put x d) := by
  have hother : ∀ n ∈ SetterDeclaration.fields.names, n ≠ f.key → ∀ d z,
      SetterDeclaration.fields.take (f.put x d) n z =
        (SetterDeclaration.fields.take d n z).map (f.put x) :=
    fun n _ => take_put f x
  cases f with
  | listValue i =>
      refine read_put_field (w := (·.set i x)) hpresent (key_mem_names (listValue i))
        (fun _ _ => rfl) (fun _ _ => rfl) hother ?_ h
      intro y items _ hitems
      rw [sequenceOf_put hitems, List.set_eq_modify]
      rfl
  | _ =>
      exact read_put_field hpresent (key_mem_names _) (fun _ _ => rfl) (fun _ _ => rfl) hother
        (fun _ _ _ _ => anyOptional_eq x) h

/-- The record of the changed setter is the changed record. -/
theorem record_put (f : SetterTextField) (x : Value) (key : Text) (description : Option Value)
    (d : SetterDeclaration) :
    (f.put x d).record key description = f.set (f.text key x) (d.record key description) := by
  obtain ⟨name, value, items, setBy, required⟩ := d
  cases f with
  | name => rfl
  | value => cases items <;> simp [put, set, text, SetterDeclaration.record, Setter.isList]
  | listValue i => cases items <;> simp [put, set, text, SetterDeclaration.record]
  | setBy => simp [put, set, text, SetterDeclaration.record]

end SetterTextField

/-! ## Substitutions -/

/-- The references of the components of a substitution. -/
def componentsOf (v : Value) : Shaped (List Value) :=
  match sequenceOf v with
  | .error fault => .error fault
  | .ok items => readAll readComponent items

theorem take_values (d : SubstitutionDeclaration) (v : Value) :
    SubstitutionDeclaration.fields.take d "values".toList v =
      (componentsOf v).map fun found => { d with values := found } := by
  have hname : ("values".toList == "name".toList) = false := by decide
  have hpattern : ("values".toList == "pattern".toList) = false := by decide
  unfold componentsOf SubstitutionDeclaration.fields
  simp only [hname, hpattern, Bool.false_eq_true, if_false]
  cases sequenceOf v <;> rfl

/-- A component whose reference is replaced is read as the new reference. -/
theorem readComponent_put {x v y : Value}
    (hpresent : (at? v [.field referenceField]).isSome = true) (h : readComponent v = .ok y) :
    readComponent (put x [.field referenceField] v) = .ok x := by
  unfold readComponent at h
  split at h
  · simp at h
  · simp at h
  · rename_i reference hread
    have htake : ∀ r z, componentFields.take r referenceField z =
        (Except.ok z : Shaped Value).map fun z => some z :=
      fun _ _ => rfl
    have hafter : componentFields.read none (put x [.field referenceField] v) = .ok (some x) :=
      read_put_field (u := fun _ => some x) (w := fun _ => x) hpresent
        (List.mem_singleton_self _) htake (fun _ _ => rfl)
        (fun n hn hne => absurd (List.mem_singleton.1 hn) hne) (fun _ _ _ _ => rfl) hread
    simp only [readComponent, hafter]

/-- With one item changed, the others are read as before. -/
theorem readAll_modify {α : Type} {read : Value → Shaped α} {g : Value → Value} {w : α}
    {items : List Value} {i : Nat}
    (hchanged : ∀ item, items[i]? = some item → ∀ z, read item = .ok z → read (g item) = .ok w)
    {found : List α} (h : readAll read items = .ok found) :
    readAll read (items.modify i g) = .ok (found.set i w) := by
  induction items generalizing i found with
  | nil =>
      obtain rfl := Except.ok.inj h
      simp [readAll]
  | cons item rest ih =>
      cases hitem : read item with
      | error fault => simp [readAll, hitem] at h
      | ok z =>
          cases hrest : readAll read rest with
          | error fault => simp [readAll, hitem, hrest, Except.map] at h
          | ok zs =>
              obtain rfl : z :: zs = found := by simpa [readAll, hitem, hrest, Except.map] using h
              cases i with
              | zero => simp [readAll, hchanged item rfl z hitem, hrest, Except.map]
              | succ i => simp [readAll, hitem, ih hchanged hrest, Except.map]

theorem componentsOf_put {x y : Value} {i : Nat}
    (hpresent : (at? y [.item i, .field referenceField]).isSome = true) {found : List Value}
    (h : componentsOf y = .ok found) :
    componentsOf (put x [.item i, .field referenceField] y) = .ok (found.set i x) := by
  obtain ⟨item, hitem, hcomponent⟩ := at?_cons hpresent
  unfold componentsOf at h ⊢
  cases hitems : sequenceOf y with
  | error fault => simp [hitems] at h
  | ok items =>
      obtain rfl : itemsOf y = items := (sequenceOf_eq_ok_iff.1 hitems).2
      rw [hitems] at h
      rw [sequenceOf_put hitems]
      refine readAll_modify ?_ h
      intro z hz reference hreference
      obtain rfl : item = z := Option.some.inj (hitem.symm.trans hz)
      exact readComponent_put hcomponent hreference

/-- The text fields of a substitution. -/
inductive SubstitutionTextField
  | name
  | pattern
  /-- The reference of a component. -/
  | reference (i : Nat)

namespace SubstitutionTextField

/-- The key of the field, or of the list that it is in. -/
def key : SubstitutionTextField → Text
  | name => "name".toList
  | pattern => "pattern".toList
  | reference _ => "values".toList

/-- The place of the field in a substitution. -/
def steps (f : SubstitutionTextField) : List Step :=
  .field f.key :: match f with
    | reference i => [.item i, .field referenceField]
    | _ => []

/-- The substitution with another content of the field. -/
def put (x : Value) : SubstitutionTextField → SubstitutionDeclaration → SubstitutionDeclaration
  | name, d => { d with name := present? x }
  | pattern, d => { d with pattern := present? x }
  | reference i, d => { d with values := d.values.set i x }

/-- The text of a content of the field; without a name, the definition's key gives one. -/
def text (key : Text) (x : Value) : SubstitutionTextField → Text
  | name => ((present? x).map textOf).getD (Reference.nameOfKey Reference.substitutionKind key)
  | _ => textOf x

/-- The record with another text of the field. -/
def set (t : Text) : SubstitutionTextField → Substitution → Substitution
  | name, s => { s with name := t }
  | pattern, s => { s with pattern := t }
  | reference i, s => { s with references := s.references.set i t }

theorem steps_ne_nil (f : SubstitutionTextField) : f.steps ≠ [] :=
  List.cons_ne_nil _ _

theorem key_mem_names (f : SubstitutionTextField) :
    f.key ∈ SubstitutionDeclaration.fields.names := by
  cases f with
  | reference i => exact List.mem_of_elem_eq_true rfl
  | _ => decide

/-- The other fields of a substitution do not see the change. -/
theorem take_put (f : SubstitutionTextField) (x : Value) {n : Text}
    (hn : n ∈ SubstitutionDeclaration.fields.names) (hne : n ≠ f.key)
    (d : SubstitutionDeclaration) (z : Value) :
    SubstitutionDeclaration.fields.take (f.put x d) n z =
      (SubstitutionDeclaration.fields.take d n z).map (f.put x) := by
  replace hn : n ∈ ["name".toList, "pattern".toList, "values".toList] := hn
  simp only [List.mem_cons, List.not_mem_nil, or_false] at hn
  rcases hn with rfl | rfl | rfl
  · show (anyOptional z).map _ = ((anyOptional z).map _).map _
    cases anyOptional z <;> cases f <;> first | rfl | exact absurd rfl hne
  · show (anyOptional z).map _ = ((anyOptional z).map _).map _
    cases anyOptional z <;> cases f <;> first | rfl | exact absurd rfl hne
  · rw [take_values, take_values]
    cases componentsOf z <;> cases f <;> first | rfl | exact absurd rfl hne

theorem read_put (f : SubstitutionTextField) {x v : Value}
    (hpresent : (at? v f.steps).isSome = true) {d : SubstitutionDeclaration}
    (h : SubstitutionDeclaration.read v = .ok d) :
    SubstitutionDeclaration.read (Metadata.put x f.steps v) = .ok (f.put x d) := by
  have hother : ∀ n ∈ SubstitutionDeclaration.fields.names, n ≠ f.key → ∀ d z,
      SubstitutionDeclaration.fields.take (f.put x d) n z =
        (SubstitutionDeclaration.fields.take d n z).map (f.put x) :=
    fun n => take_put f x
  cases f with
  | reference i =>
      exact read_put_field (w := (·.set i x)) hpresent (key_mem_names (reference i)) take_values
        (fun _ _ => rfl) hother (fun _ _ hy => componentsOf_put hy) h
  | _ =>
      exact read_put_field hpresent (key_mem_names _) (fun _ _ => rfl) (fun _ _ => rfl) hother
        (fun _ _ _ _ => anyOptional_eq x) h

/-- The record of the changed substitution is the changed record. -/
theorem record_put (f : SubstitutionTextField) (x : Value) (key : Text)
    (d : SubstitutionDeclaration) :
    (f.put x d).record key = f.set (f.text key x) (d.record key) := by
  cases f with
  | name => rfl
  | pattern => simp [put, set, text, SubstitutionDeclaration.record]
  | reference i => simp [put, set, text, SubstitutionDeclaration.record, List.map_set]

end SubstitutionTextField

/-! ## Definitions -/

/-- The text fields of a definition. -/
inductive TextField
  | description
  | setter (f : SetterTextField)
  | substitution (f : SubstitutionTextField)

namespace TextField

/-- The place of the field in a definition. -/
def steps : TextField → List Step
  | description => [.field "description".toList]
  | setter f => .field "x-k8s-cli".toList :: .field "setter".toList :: f.steps
  | substitution f => .field "x-k8s-cli".toList :: .field "substitution".toList :: f.steps

/-- The text of a content of the field, in a definition under a key. -/
def text (key : Text) (x : Value) : TextField → Text
  | description => textOf x
  | setter f => f.text key x
  | substitution f => f.text key x

/-- The records of a definition with another text of the field. -/
def set (t : Text) : TextField → Records → Records
  | description, r => { r with setters := r.setters.map fun s => { s with description := t } }
  | setter f, r => { r with setters := r.setters.map (f.set t) }
  | substitution f, r => { r with substitutions := r.substitutions.map (f.set t) }

end TextField

namespace Extension

/-- The extension with its setter changed, if there is one. -/
def mapSetter (u : SetterDeclaration → SetterDeclaration) (e : Extension) : Extension :=
  { e with setter := e.setter.map u }

/-- The extension with its substitution changed, if there is one. -/
def mapSubstitution (u : SubstitutionDeclaration → SubstitutionDeclaration) (e : Extension) :
    Extension :=
  { e with substitution := e.substitution.map u }

theorem read_putSetter (f : SetterTextField) {x v : Value}
    (hpresent : (at? v (.field "setter".toList :: f.steps)).isSome = true) {e : Extension}
    (h : read v = .ok e) :
    read (put x (.field "setter".toList :: f.steps) v) = .ok (e.mapSetter (f.put x)) := by
  refine read_put_field (u := mapSetter (f.put x)) hpresent List.mem_cons_self (fun _ _ => rfl)
    (fun _ _ => rfl) ?_
    (fun y d hy => optional_put f.steps_ne_nil hy fun d => f.read_put hy) h
  intro n _ hne r z
  unfold fields
  dsimp only
  split_ifs with hsetter
  · exact absurd (eq_of_beq hsetter) hne
  · cases optional SubstitutionDeclaration.read z <;> rfl

theorem read_putSubstitution (f : SubstitutionTextField) {x v : Value}
    (hpresent : (at? v (.field "substitution".toList :: f.steps)).isSome = true) {e : Extension}
    (h : read v = .ok e) :
    read (put x (.field "substitution".toList :: f.steps) v) =
      .ok (e.mapSubstitution (f.put x)) := by
  refine read_put_field (u := mapSubstitution (f.put x)) hpresent
    (List.mem_of_elem_eq_true rfl) (fun _ _ => rfl) (fun _ _ => rfl) ?_
    (fun y d hy => optional_put f.steps_ne_nil hy fun d => f.read_put hy) h
  intro n hn hne r z
  replace hn : n ∈ ["setter".toList, "substitution".toList] := hn
  obtain rfl : n = "setter".toList := by
    simpa only [List.mem_cons, hne, List.not_mem_nil, or_false] using hn
  show (optional SetterDeclaration.read z).map _ = ((optional SetterDeclaration.read z).map _).map _
  cases optional SetterDeclaration.read z <;> rfl

end Extension

/-- The definition with its extension changed, if there is one. -/
def Definition.mapExtension (u : Extension → Extension) (d : Definition) : Definition :=
  { d with extension := d.extension.map u }

/-- The description of a definition does not see a change of its extension. -/
theorem Definition.take_mapExtension (u : Extension → Extension) {n : Text}
    (hn : n ∈ fields.names) (hne : n ≠ "x-k8s-cli".toList) (d : Definition) (z : Value) :
    fields.take (d.mapExtension u) n z = (fields.take d n z).map (mapExtension u) := by
  replace hn : n ∈ ["description".toList, "x-k8s-cli".toList] := hn
  obtain rfl : n = "description".toList := by
    simpa only [List.mem_cons, hne, List.not_mem_nil, or_false] using hn
  show (anyOptional z).map _ = ((anyOptional z).map _).map _
  rw [anyOptional_eq]
  rfl

namespace TextField

/-- The definition with another content of the field. -/
def put (x : Value) : TextField → Definition → Definition
  | description => fun d => { d with description := present? x }
  | setter f => Definition.mapExtension (Extension.mapSetter (f.put x))
  | substitution f => Definition.mapExtension (Extension.mapSubstitution (f.put x))

theorem read_put (f : TextField) {x v : Value} (hpresent : (at? v f.steps).isSome = true)
    {d : Definition} (h : Definition.read v = .ok d) :
    Definition.read (Metadata.put x f.steps v) = .ok (f.put x d) := by
  cases f with
  | description =>
      refine read_put_field (u := put x description) hpresent List.mem_cons_self
        (fun _ _ => rfl) (fun _ _ => rfl) ?_ (fun _ _ _ _ => anyOptional_eq x) h
      intro n _ hne r z
      unfold Definition.fields
      dsimp only
      split_ifs with hdescription
      · exact absurd (eq_of_beq hdescription) hne
      · cases optional Extension.read z <;> rfl
  | setter f =>
      exact read_put_field (f := Definition.fields) hpresent (List.mem_of_elem_eq_true rfl)
        (fun _ _ => rfl) (fun _ _ => rfl) (fun n => Definition.take_mapExtension _)
        (fun y e hy => optional_put (List.cons_ne_nil _ _) hy
          fun e => Extension.read_putSetter f hy) h
  | substitution f =>
      exact read_put_field (f := Definition.fields) hpresent (List.mem_of_elem_eq_true rfl)
        (fun _ _ => rfl) (fun _ _ => rfl) (fun n => Definition.take_mapExtension _)
        (fun y e hy => optional_put (List.cons_ne_nil _ _) hy
          fun e => Extension.read_putSubstitution f hy) h

/-- The records of the changed definition are the changed records. -/
theorem records_put (f : TextField) (x : Value) (key : Text) (d : Definition) :
    (f.put x d).records key = f.set (f.text key x) (d.records key) := by
  obtain ⟨description, extension⟩ := d
  cases extension with
  | none => cases f <;> rfl
  | some e =>
      obtain ⟨setter, substitution⟩ := e
      cases f with
      | description =>
          cases setter <;> simp [put, set, text, Definition.records, SetterDeclaration.record]
      | setter f =>
          cases setter <;>
            simp [put, set, text, Definition.records, Definition.mapExtension,
              Extension.mapSetter, f.record_put]
      | substitution f =>
          cases substitution <;>
            simp [put, set, text, Definition.records, Definition.mapExtension,
              Extension.mapSubstitution, f.record_put]

theorem length_setters_set (f : TextField) (t : Text) (r : Records) :
    (f.set t r).setters.length = r.setters.length := by
  cases f <;> simp [set]

theorem length_substitutions_set (f : TextField) (t : Text) (r : Records) :
    (f.set t r).substitutions.length = r.substitutions.length := by
  cases f <;> simp [set]

end TextField

/-! ## Documents -/

/-- The place of a text field in a document, in one of its definitions. -/
def place (i : Nat) (f : TextField) : List Step :=
  .field "openAPI".toList :: .field "definitions".toList :: .entry i :: f.steps

/-- The key of a definition, which is empty if it is no string. -/
def keyOf (e : Value × Value) : Text :=
  (stringOf? e.1).getD []

theorem recordsOfEntry_put (f : TextField) {x : Value} {e : Value × Value}
    (hpresent : (at? e.2 f.steps).isSome = true) {r : Records} (h : recordsOfEntry e = .ok r) :
    recordsOfEntry (e.1, put x f.steps e.2) = .ok (f.set (f.text (keyOf e) x) r) := by
  unfold recordsOfEntry keyOf at *
  cases hkey : stringOf? e.1 with
  | none =>
      obtain rfl : ({} : Records) = r := by simpa [hkey] using h
      cases f <;> rfl
  | some key =>
      cases hread : Definition.read e.2 with
      | error fault => simp [hkey, hread] at h
      | ok d =>
          obtain rfl : d.records key = r := by simpa [hkey, hread] using h
          simp [f.read_put hpresent hread, f.records_put]

theorem sectionOf_put {x v : Value} {i : Nat} {inner : List Step}
    (hpresent : (at? v (.field "definitions".toList :: .entry i :: inner)).isSome = true)
    {entries : List (Value × Value)} (h : documentFields.sectionOf v = .ok entries) :
    documentFields.sectionOf (put x (.field "definitions".toList :: .entry i :: inner) v) =
      .ok (entries.modify i fun e => (e.1, put x inner e.2)) := by
  have htake : ∀ r z, documentFields.sectionFields.take r "definitions".toList z =
      (mappingOf "a YAML mapping".toList z).map fun entries => entries := by
    intro r z
    show mappingOf "a YAML mapping".toList z = _
    cases mappingOf "a YAML mapping".toList z <;> rfl
  exact read_put_field (a := fun _ entries => entries) hpresent (List.mem_singleton_self _) htake
    (fun _ _ => rfl) (fun n hn hne => absurd (List.mem_singleton.1 hn) hne)
    (fun _ _ _ => mappingOf_put) h

/-- After a replacement inside a definition, the definitions are the same except this one. -/
theorem definitionsOf_put {x v : Value} {i : Nat} {f : TextField}
    (hpresent : (at? v (place i f)).isSome = true) {entries : List (Value × Value)}
    (h : definitionsOf v = .ok entries) :
    definitionsOf (put x (place i f) v) =
      .ok (entries.modify i fun e => (e.1, put x f.steps e.2)) := by
  have htake : ∀ r z, documentFields.take r "openAPI".toList z =
      (optional documentFields.sectionOf z).map fun found => found := by
    intro r z
    show optional documentFields.sectionOf z = _
    cases optional documentFields.sectionOf z <;> rfl
  unfold definitionsOf at h ⊢
  cases hread : documentFields.read none v with
  | error fault => simp [hread, Except.map] at h
  | ok found =>
      obtain rfl : found.getD [] = entries := by simpa [hread, Except.map] using h
      have hafter : documentFields.read none (put x (place i f) v) =
          .ok (found.map fun entries => entries.modify i fun e => (e.1, put x f.steps e.2)) :=
        read_put_field (a := fun _ found => found) hpresent (List.mem_singleton_self _) htake
          (fun _ _ => rfl) (fun n hn hne => absurd (List.mem_singleton.1 hn) hne)
          (fun y found hy => optional_put (List.cons_ne_nil _ _) hy
            fun entries => sectionOf_put hy) hread
      rw [hafter]
      cases found <;> simp [Except.map]

/-- The one known field of a mapping has been taken when the mapping is read. -/
theorem take_of_read {α : Type} {f : Fields α} {name : Text} (hnames : f.names = [name])
    {v y : Value} (hrecord : IsRecord f.names v) (hy : HasEntry v name y) {start r : α}
    (h : f.read start v = .ok r) : ∃ before, f.take before name y = .ok r := by
  have hname : name ∈ f.names := by simp [hnames]
  rcases read_eq_ok h with ⟨-, hnone⟩ | ⟨other, hother, z, before, hz, htaken⟩
  · exact absurd hy (hnone name hname y)
  · obtain rfl : other = name := by simpa [hnames] using hother
    obtain rfl := hrecord.unique hname hy hz
    exact ⟨before, htaken⟩

/-- The definitions that are read are the entries that stand in the document. -/
theorem entriesOf_of_definitionsOf {v : Value} {entries : List (Value × Value)}
    (h : definitionsOf v = .ok entries) {outer x : Value}
    (houter : HasEntry v "openAPI".toList outer) (hx : HasEntry outer "definitions".toList x) :
    entriesOf x = entries := by
  obtain ⟨hrecord, hsection⟩ := exists_definitionsOf_iff.1 ⟨entries, h⟩
  unfold definitionsOf at h
  cases hread : documentFields.read none v with
  | error fault => simp [hread, Except.map] at h
  | ok found =>
      obtain rfl : found.getD [] = entries := by simpa [hread, Except.map] using h
      obtain ⟨_, htaken⟩ := take_of_read rfl hrecord houter hread
      rcases optional_eq_ok htaken with ⟨rfl, -⟩ | ⟨inner, hinner, rfl⟩
      · exact absurd hx (not_hasEntry_of_null rfl)
      · obtain ⟨_, hmapping⟩ := take_of_read rfl (hsection outer houter).1 hx hinner
        exact (mappingOf_eq_ok_iff.1 hmapping).2

/-- A text field that is present is in one of the definitions that are read. -/
theorem exists_entry_of_present {v : Value} {i : Nat} {f : TextField}
    (hpresent : (at? v (place i f)).isSome = true) {entries : List (Value × Value)}
    (h : definitionsOf v = .ok entries) :
    ∃ e, entries[i]? = some e ∧ (at? e.2 f.steps).isSome = true := by
  obtain ⟨outer, houter, hsection⟩ := at?_cons hpresent
  obtain ⟨x, hx, hdefinitions⟩ := at?_cons hsection
  obtain ⟨y, hy, hfield⟩ := at?_cons hdefinitions
  obtain ⟨e, he, rfl⟩ := Option.map_eq_some_iff.1 hy
  rw [entriesOf_of_definitionsOf h (hasEntry_of_fieldOf? houter) (hasEntry_of_fieldOf? hx)] at he
  exact ⟨e, he, hfield⟩

/-- Reading a document is finding its definitions and their records. -/
theorem ofValue_eq_ok_iff {v : Value} {r : Records} :
    ofValue v = .ok r ↔
      ∃ entries, definitionsOf v = .ok entries ∧ recordsOfEntries entries = .ok r := by
  unfold ofValue
  split
  · rename_i hnull
    have hnone : definitionsOf v = .ok [] := by
      unfold definitionsOf Fields.read mappingOf
      rw [hnull]
      rfl
    simp [hnone, recordsOfEntries]
  · cases definitionsOf v <;> simp

theorem records_append_assoc (a b c : Records) : a ++ b ++ c = a ++ (b ++ c) := by
  show Records.append (Records.append a b) c = Records.append a (Records.append b c)
  simp [Records.append]

theorem recordsOfEntries_cons_eq_ok_iff {e : Value × Value} {rest : List (Value × Value)}
    {r : Records} :
    recordsOfEntries (e :: rest) = .ok r ↔
      ∃ here after, recordsOfEntry e = .ok here ∧ recordsOfEntries rest = .ok after ∧
        here ++ after = r := by
  rw [recordsOfEntries]
  cases recordsOfEntry e with
  | error reason => simp
  | ok here => cases recordsOfEntries rest <;> simp [Except.map]

/-- The records of definitions are those of the first ones and those of the rest. -/
theorem recordsOfEntries_append_eq_ok_iff {first rest : List (Value × Value)} {r : Records} :
    recordsOfEntries (first ++ rest) = .ok r ↔
      ∃ before after, recordsOfEntries first = .ok before ∧ recordsOfEntries rest = .ok after ∧
        before ++ after = r := by
  induction first generalizing r with
  | nil =>
      have hempty : ∀ a : Records, ({} : Records) ++ a = a := fun _ => rfl
      simp [recordsOfEntries, hempty]
  | cons e first ih =>
      simp only [List.cons_append, recordsOfEntries_cons_eq_ok_iff, ih]
      constructor
      · rintro ⟨here, _, hhere, ⟨before, after, hbefore, hafter, rfl⟩, rfl⟩
        exact ⟨here ++ before, after, ⟨here, before, hhere, hbefore, rfl⟩, hafter,
          records_append_assoc here before after⟩
      · rintro ⟨_, after, ⟨here, before, hhere, hbefore, rfl⟩, hafter, rfl⟩
        exact ⟨here, before ++ after, hhere, ⟨before, after, hbefore, hafter, rfl⟩,
          (records_append_assoc here before after).symm⟩

/-- The records of a document, split at one of its definitions. -/
structure Split (v : Value) (i : Nat) where
  entries : List (Value × Value)
  entry : Value × Value
  before : Records
  here : Records
  after : Records
  definitions : definitionsOf v = .ok entries
  isEntry : entries[i]? = some entry
  isBefore : recordsOfEntries (entries.take i) = .ok before
  isHere : recordsOfEntry entry = .ok here
  isAfter : recordsOfEntries (entries.drop (i + 1)) = .ok after

namespace Split

variable {v : Value} {i : Nat}

/-- The records of the document. -/
def records (s : Split v i) : Records :=
  s.before ++ s.here ++ s.after

/-- The records of the document with one text of the definition replaced by that of a value. -/
def replaced (s : Split v i) (f : TextField) (x : Value) : Records :=
  s.before ++ f.set (f.text (keyOf s.entry) x) s.here ++ s.after

theorem length_setters_replaced (s : Split v i) (f : TextField) (x : Value) :
    (s.replaced f x).setters.length = s.records.setters.length := by
  show (_ ++ _ ++ _ : List Setter).length = (_ ++ _ ++ _ : List Setter).length
  simp [f.length_setters_set]

theorem length_substitutions_replaced (s : Split v i) (f : TextField) (x : Value) :
    (s.replaced f x).substitutions.length = s.records.substitutions.length := by
  show (_ ++ _ ++ _ : List Substitution).length = (_ ++ _ ++ _ : List Substitution).length
  simp [f.length_substitutions_set]

end Split

/-- The records of a document are split at every definition with a text field. -/
theorem exists_split {v : Value} {r : Records} (h : ofValue v = .ok r) {i : Nat} {f : TextField}
    (hpresent : (at? v (place i f)).isSome = true) : ∃ s : Split v i, r = s.records := by
  obtain ⟨entries, hentries, hr⟩ := ofValue_eq_ok_iff.1 h
  obtain ⟨e, he, -⟩ := exists_entry_of_present hpresent hentries
  obtain ⟨hi, hget⟩ := List.getElem?_eq_some_iff.1 he
  have hsplit : entries = entries.take i ++ e :: entries.drop (i + 1) := by
    rw [← hget, ← List.drop_eq_getElem_cons hi, List.take_append_drop]
  rw [hsplit] at hr
  obtain ⟨before, rest, hbefore, hrest, rfl⟩ := recordsOfEntries_append_eq_ok_iff.1 hr
  obtain ⟨here, after, hhere, hafter, rfl⟩ := recordsOfEntries_cons_eq_ok_iff.1 hrest
  exact ⟨⟨entries, e, before, here, after, hentries, he, hbefore, hhere, hafter⟩,
    (records_append_assoc before here after).symm⟩

theorem Split.ofValue_put {v : Value} {i : Nat} (s : Split v i) {f : TextField}
    (hpresent : (at? v (place i f)).isSome = true) (x : Value) :
    ofValue (put x (place i f) v) = .ok (s.replaced f x) := by
  obtain ⟨e, he, hfield⟩ := exists_entry_of_present hpresent s.definitions
  obtain rfl : s.entry = e := Option.some.inj (s.isEntry.symm.trans he)
  obtain ⟨hi, hget⟩ := List.getElem?_eq_some_iff.1 he
  have hmodified : (s.entries.modify i fun e => (e.1, put x f.steps e.2)) =
      s.entries.take i ++ (s.entry.1, put x f.steps s.entry.2) :: s.entries.drop (i + 1) := by
    rw [List.modify_eq_take_cons_drop hi, hget]
  have hreplaced : recordsOfEntry (s.entry.1, put x f.steps s.entry.2) =
      .ok (f.set (f.text (keyOf s.entry) x) s.here) := recordsOfEntry_put f hfield s.isHere
  refine ofValue_eq_ok_iff.2 ⟨_, definitionsOf_put hpresent s.definitions, ?_⟩
  rw [hmodified, recordsOfEntries_append_eq_ok_iff]
  exact ⟨s.before, _, s.isBefore,
    recordsOfEntries_cons_eq_ok_iff.2 ⟨_, s.after, hreplaced, s.isAfter, rfl⟩,
    (records_append_assoc _ _ _).symm⟩

/-- A metadata file with one definition that is both a setter and a substitution. -/
def twofoldFile : Text :=
  "openAPI:\n".toList ++
  "  definitions:\n".toList ++
  "    io.k8s.cli.setters.zone:\n".toList ++
  "      x-k8s-cli:\n".toList ++
  "        setter:\n".toList ++
  "          name: place\n".toList ++
  "          value: 3\n".toList ++
  "          listValues:\n".toList ++
  "          - a\n".toList ++
  "          - 7\n".toList ++
  "        substitution:\n".toList ++
  "          name: route\n".toList ++
  "          values:\n".toList ++
  "          - ref: a\n".toList

/-- Without a name of its own, the setter has that of the definition's key. -/
example : (Value.read twofoldFile).any (fun v =>
    match ofValue (put .null (place 0 (.setter .name)) v) with
    | .ok r => r.setters.map (·.name) == ["zone".toList] &&
        r.substitutions.map (·.name) == ["route".toList]
    | .error _ => false) = true := by
  decide +kernel

end SetterReport.Metadata
