import Mathlib.Data.List.Pairwise
import SetterReport.Metadata

/-!
# The shape of an accepted metadata file

The grammar of a metadata file is told level by level, from the document down to the
components of a substitution.  Tags do not matter anywhere, and null stands for an empty
mapping or sequence.  What each level shares is `IsRecord`: the keys are strings, and none
of the known fields is there twice.

Reading is by `Fields.read`, which goes through a mapping once.  It succeeds on exactly the
records whose known fields are accepted one by one (`exists_read_iff`), so each level of the
grammar is one application of this, and the whole grammar is decided by the reader.

## Main result

* `parse_cases` — a metadata file is read exactly when its document has the shape told
  here; any other text is refused, with the path of the file.
-/

namespace SetterReport.Metadata

open Yaml

/-! ## Mappings and sequences -/

/-- The entries of a mapping, tags ignored; other values have none. -/
def entriesOf (v : Value) : List (Value × Value) :=
  match v.untagged with
  | .mapping entries => entries
  | _ => []

/-- The items of a sequence, tags ignored; other values have none. -/
def itemsOf (v : Value) : List Value :=
  match v.untagged with
  | .sequence items => items
  | _ => []

/-- A mapping, or null for an empty one. -/
def IsMapping (v : Value) : Prop :=
  v.untagged = .null ∨ ∃ entries, v.untagged = .mapping entries

/-- A sequence, or null for an empty one. -/
def IsSequence (v : Value) : Prop :=
  v.untagged = .null ∨ ∃ items, v.untagged = .sequence items

/-- A mapping has a value under a string key. -/
def HasEntry (v : Value) (key : Text) (x : Value) : Prop :=
  ∃ e ∈ entriesOf v, stringOf? e.1 = some key ∧ e.2 = x

theorem mappingOf_eq_ok_iff {expected : Text} {v : Value} {entries : List (Value × Value)} :
    mappingOf expected v = .ok entries ↔ IsMapping v ∧ entriesOf v = entries := by
  unfold mappingOf IsMapping entriesOf
  cases v.untagged <;> simp

theorem sequenceOf_eq_ok_iff {v : Value} {items : List Value} :
    sequenceOf v = .ok items ↔ IsSequence v ∧ itemsOf v = items := by
  unfold sequenceOf IsSequence itemsOf
  cases v.untagged <;> simp

theorem exists_truthOf_iff {v : Value} :
    (∃ b, truthOf v = .ok b) ↔ ∃ b, v.untagged = .bool b := by
  unfold truthOf
  cases v.untagged <;> simp

theorem exists_map_iff {α β ε : Type} {f : α → β} {r : Except ε α} :
    (∃ y, r.map f = .ok y) ↔ ∃ x, r = .ok x := by
  cases r <;> simp [Except.map]

/-- A field that may be null is accepted where its shape is, if the shape has room for
null. -/
theorem exists_optional_iff {α : Type} {shape : Value → Shaped α}
    (hnull : ∃ x, shape .null = .ok x) {v : Value} :
    (∃ x, optional shape v = .ok x) ↔ ∃ x, shape v = .ok x := by
  unfold optional
  split
  · simpa using hnull
  · exact exists_map_iff

/-- A field that may be null is left out, or it has the shape. -/
theorem optional_eq_ok {α : Type} {shape : Value → Shaped α} {v : Value} {found : Option α}
    (h : optional shape v = .ok found) :
    (v = .null ∧ found = none) ∨ ∃ x, shape v = .ok x ∧ found = some x := by
  unfold optional at h
  split at h
  · exact Or.inl ⟨rfl, (Except.ok.inj h).symm⟩
  · cases hshape : shape v with
    | error fault => simp [hshape, Except.map] at h
    | ok x => exact Or.inr ⟨x, rfl, by simpa [hshape, Except.map, eq_comm] using h⟩

/-! ## Records -/

/-- A mapping with string keys and with each of some known fields at most once. -/
structure IsRecord (names : List Text) (v : Value) : Prop where
  isMapping : IsMapping v
  keys : ∀ e ∈ entriesOf v, ∃ name, stringOf? e.1 = some name
  once : (entriesOf v).Pairwise fun a b =>
    ∀ name ∈ names, stringOf? a.1 = some name → stringOf? b.1 ≠ some name

/-- A known field has one value. -/
theorem IsRecord.unique {names : List Text} {v : Value} (h : IsRecord names v) {name : Text}
    (hname : name ∈ names) {x y : Value} (hx : HasEntry v name x) (hy : HasEntry v name y) :
    x = y := by
  obtain ⟨a, ha, hkeyA, rfl⟩ := hx
  obtain ⟨b, hb, hkeyB, rfl⟩ := hy
  have hsame : (entriesOf v).Pairwise fun a b =>
      stringOf? a.1 = some name → stringOf? b.1 = some name → a.2 = b.2 :=
    h.once.imp fun hab hkeyA hkeyB => absurd hkeyB (hab name hname hkeyA)
  have hflip := hsame.imp fun hab hkeyB hkeyA => (hab hkeyA hkeyB).symm
  exact hsame.forall_of_forall_of_flip (fun _ _ _ _ => rfl) hflip ha hb hkeyA hkeyB

/-- What reading one entry does: its key is a string, and either the field is not known and
passed over, or it is new and its value is taken into the record. -/
theorem readFrom_cons_eq_ok_iff {α : Type} {f : Fields α} {seen : List Text} {record r : α}
    {e : Value × Value} {rest : List (Value × Value)} :
    f.readFrom seen record (e :: rest) = .ok r ↔
      ∃ key, stringOf? e.1 = some key ∧
        ((key ∉ f.names ∧ f.readFrom seen record rest = .ok r) ∨
          (key ∈ f.names ∧ key ∉ seen ∧ ∃ next, f.take record key e.2 = .ok next ∧
            f.readFrom (key :: seen) next rest = .ok r)) := by
  obtain ⟨k, v⟩ := e
  rw [Fields.readFrom]
  cases stringOf? k with
  | none => simp
  | some key =>
      by_cases hknown : key ∈ f.names
      · by_cases hseen : key ∈ seen
        · simp [hknown, hseen]
        · cases htaken : f.take record key v <;> simp [hknown, hseen, htaken]
      · simp [hknown]

/-- The entries can be read on after some fields have been there: the keys that remain are
strings, and the known fields among them are new, not repeated and accepted. -/
structure IsReadable (names : List Text) (accepts : Text → Value → Prop) (seen : List Text)
    (entries : List (Value × Value)) : Prop where
  keys : ∀ e ∈ entries, ∃ name, stringOf? e.1 = some name
  once : entries.Pairwise fun a b =>
    ∀ name ∈ names, stringOf? a.1 = some name → stringOf? b.1 ≠ some name
  accepted : ∀ e ∈ entries, ∀ name ∈ names, stringOf? e.1 = some name →
    name ∉ seen ∧ accepts name e.2

section Readable

variable {names : List Text} {accepts : Text → Value → Prop} {seen : List Text}
  {e : Value × Value} {rest : List (Value × Value)} {key : Text}

theorem isReadable_cons_unknown (hkey : stringOf? e.1 = some key) (hunknown : key ∉ names) :
    IsReadable names accepts seen (e :: rest) ↔ IsReadable names accepts seen rest := by
  have hother : ∀ name ∈ names, stringOf? e.1 ≠ some name := by
    intro name hname hsame
    obtain rfl := Option.some.inj (hkey.symm.trans hsame)
    exact hunknown hname
  constructor
  · intro h
    exact ⟨(List.forall_mem_cons.1 h.keys).2, (List.pairwise_cons.1 h.once).2,
      (List.forall_mem_cons.1 h.accepted).2⟩
  · intro h
    refine ⟨List.forall_mem_cons.2 ⟨⟨key, hkey⟩, h.keys⟩,
      List.pairwise_cons.2 ⟨?_, h.once⟩, List.forall_mem_cons.2 ⟨?_, h.accepted⟩⟩
    · intro b _ name hname hsame
      exact absurd hsame (hother name hname)
    · intro name hname hsame
      exact absurd hsame (hother name hname)

theorem isReadable_cons_known (hkey : stringOf? e.1 = some key) (hknown : key ∈ names) :
    IsReadable names accepts seen (e :: rest) ↔
      key ∉ seen ∧ accepts key e.2 ∧ IsReadable names accepts (key :: seen) rest := by
  constructor
  · intro h
    obtain ⟨hnew, hvalue⟩ := h.accepted e List.mem_cons_self key hknown hkey
    obtain ⟨hdistinct, honce⟩ := List.pairwise_cons.1 h.once
    refine ⟨hnew, hvalue, (List.forall_mem_cons.1 h.keys).2, honce, ?_⟩
    intro b hb name hname hkeyB
    obtain ⟨hnewB, hvalueB⟩ := h.accepted b (List.mem_cons_of_mem _ hb) name hname hkeyB
    refine ⟨?_, hvalueB⟩
    intro hmem
    rcases List.mem_cons.1 hmem with rfl | hmem
    · exact hdistinct b hb name hname hkey hkeyB
    · exact hnewB hmem
  · intro h
    -- that no later key is this one follows from its being among the fields that have been there
    obtain ⟨hnew, hvalue, hrest⟩ := h
    refine ⟨List.forall_mem_cons.2 ⟨⟨key, hkey⟩, hrest.keys⟩,
      List.pairwise_cons.2 ⟨?_, hrest.once⟩, List.forall_mem_cons.2 ⟨?_, ?_⟩⟩
    · intro b hb name hname hsame hkeyB
      obtain rfl := Option.some.inj (hkey.symm.trans hsame)
      exact (hrest.accepted b hb key hname hkeyB).1 List.mem_cons_self
    · intro name hname hsame
      obtain rfl := Option.some.inj (hkey.symm.trans hsame)
      exact ⟨hnew, hvalue⟩
    · intro b hb name hname hkeyB
      obtain ⟨hnewB, hvalueB⟩ := hrest.accepted b hb name hname hkeyB
      exact ⟨fun hmem => hnewB (List.mem_cons_of_mem _ hmem), hvalueB⟩

end Readable

/-- Reading on succeeds on the entries that can be read. -/
theorem exists_readFrom_iff {α : Type} {f : Fields α} {accepts : Text → Value → Prop}
    (htake : ∀ record, ∀ name ∈ f.names, ∀ x,
      (∃ r, f.take record name x = .ok r) ↔ accepts name x)
    (entries : List (Value × Value)) (seen : List Text) (record : α) :
    (∃ r, f.readFrom seen record entries = .ok r) ↔
      IsReadable f.names accepts seen entries := by
  induction entries generalizing seen record with
  | nil => exact iff_of_true ⟨record, rfl⟩ ⟨by simp, List.Pairwise.nil, by simp⟩
  | cons e rest ih =>
      cases hkey : stringOf? e.1 with
      | none =>
          refine iff_of_false ?_ ?_
          · simp [readFrom_cons_eq_ok_iff, hkey]
          · intro h
            obtain ⟨name, hname⟩ := h.keys e List.mem_cons_self
            simp [hkey] at hname
      | some key =>
          by_cases hknown : key ∈ f.names
          · rw [isReadable_cons_known hkey hknown, ← htake record key hknown]
            simp only [readFrom_cons_eq_ok_iff, hkey, Option.some.injEq, exists_eq_left', hknown,
              not_true_eq_false, false_and, false_or, true_and]
            constructor
            · rintro ⟨r, hnew, next, htaken, hr⟩
              exact ⟨hnew, ⟨next, htaken⟩, (ih (key :: seen) next).1 ⟨r, hr⟩⟩
            · rintro ⟨hnew, ⟨next, htaken⟩, hrest⟩
              obtain ⟨r, hr⟩ := (ih (key :: seen) next).2 hrest
              exact ⟨r, hnew, next, htaken, hr⟩
          · rw [isReadable_cons_unknown hkey hknown, ← ih seen record]
            simp only [readFrom_cons_eq_ok_iff, hkey, Option.some.injEq, exists_eq_left', hknown,
              not_false_eq_true, false_and, or_false, true_and]

/-- A record is read when it is one and the values of its known fields are accepted. -/
theorem exists_read_iff {α : Type} {f : Fields α} {accepts : Text → Value → Prop}
    (htake : ∀ record, ∀ name ∈ f.names, ∀ x,
      (∃ r, f.take record name x = .ok r) ↔ accepts name x)
    (start : α) (v : Value) :
    (∃ r, f.read start v = .ok r) ↔
      IsRecord f.names v ∧ ∀ name ∈ f.names, ∀ x, HasEntry v name x → accepts name x := by
  unfold Fields.read
  cases hmapping : mappingOf f.title v with
  | error fault =>
      constructor
      · rintro ⟨r, hr⟩
        simp at hr
      · rintro ⟨hrecord, -⟩
        have hentries := (@mappingOf_eq_ok_iff f.title v _).2 ⟨hrecord.isMapping, rfl⟩
        simp [hmapping] at hentries
  | ok entries =>
      obtain ⟨hisMapping, rfl⟩ := mappingOf_eq_ok_iff.1 hmapping
      show (∃ r, f.readFrom [] start (entriesOf v) = .ok r) ↔ _
      rw [exists_readFrom_iff htake]
      constructor
      · intro h
        refine ⟨⟨hisMapping, h.keys, h.once⟩, ?_⟩
        rintro name hname x ⟨e, he, hkey, rfl⟩
        exact (h.accepted e he name hname hkey).2
      · rintro ⟨hrecord, haccepts⟩
        refine ⟨hrecord.keys, hrecord.once, ?_⟩
        intro e he name hname hkey
        exact ⟨by simp, haccepts name hname e.2 ⟨e, he, hkey, rfl⟩⟩

/-- What reading on gives is the record as it was, if no known field is left, or else it is
what taking the last of them gave. -/
theorem readFrom_eq_ok {α : Type} {f : Fields α} {entries : List (Value × Value)}
    {seen : List Text} {record r : α} (h : f.readFrom seen record entries = .ok r) :
    (r = record ∧ ∀ e ∈ entries, ∀ name ∈ f.names, stringOf? e.1 ≠ some name) ∨
      ∃ e ∈ entries, ∃ name ∈ f.names, ∃ before,
        stringOf? e.1 = some name ∧ f.take before name e.2 = .ok r := by
  induction entries generalizing seen record with
  | nil =>
      obtain rfl : record = r := by simpa [Fields.readFrom] using h
      exact Or.inl ⟨rfl, by simp⟩
  | cons e rest ih =>
      obtain ⟨key, hkey, hcase⟩ := readFrom_cons_eq_ok_iff.1 h
      rcases hcase with ⟨hunknown, hrest⟩ | ⟨hknown, -, next, htaken, hrest⟩
      · rcases ih hrest with ⟨rfl, hnone⟩ | ⟨b, hb, hlast⟩
        · refine Or.inl ⟨rfl, List.forall_mem_cons.2 ⟨?_, hnone⟩⟩
          intro name hname hsame
          obtain rfl := Option.some.inj (hkey.symm.trans hsame)
          exact hunknown hname
        · exact Or.inr ⟨b, List.mem_cons_of_mem _ hb, hlast⟩
      · rcases ih hrest with ⟨rfl, -⟩ | ⟨b, hb, hlast⟩
        · exact Or.inr ⟨e, List.mem_cons_self, key, hknown, record, hkey, htaken⟩
        · exact Or.inr ⟨b, List.mem_cons_of_mem _ hb, hlast⟩

/-- What is read is the record without any field, or it is what taking a field gave. -/
theorem read_eq_ok {α : Type} {f : Fields α} {start r : α} {v : Value}
    (h : f.read start v = .ok r) :
    (r = start ∧ ∀ name ∈ f.names, ∀ x, ¬HasEntry v name x) ∨
      ∃ name ∈ f.names, ∃ x before, HasEntry v name x ∧ f.take before name x = .ok r := by
  unfold Fields.read at h
  split at h
  · simp at h
  · rename_i entries hmapping
    obtain ⟨-, rfl⟩ := mappingOf_eq_ok_iff.1 hmapping
    rcases readFrom_eq_ok h with ⟨rfl, hnone⟩ | ⟨e, he, name, hname, before, hkey, htaken⟩
    · refine Or.inl ⟨rfl, ?_⟩
      rintro name hname x ⟨e, he, hkey, -⟩
      exact hnone e he name hname hkey
    · exact Or.inr ⟨name, hname, e.2, before, ⟨e, he, hkey, rfl⟩, htaken⟩

/-! ## The grammar -/

/-- A setter: its list of values is a sequence, and whether it is required a truth value. -/
structure IsSetter (v : Value) : Prop where
  record : IsRecord SetterDeclaration.fields.names v
  listValues : ∀ x, HasEntry v "listValues".toList x → IsSequence x
  required : ∀ x, HasEntry v "required".toList x → ∃ b, x.untagged = .bool b

/-- A component of a substitution, which has a reference. -/
structure IsComponent (v : Value) : Prop where
  record : IsRecord componentFields.names v
  reference : ∃ x, HasEntry v referenceField x

/-- A substitution: its values are a sequence of components. -/
structure IsSubstitution (v : Value) : Prop where
  record : IsRecord SubstitutionDeclaration.fields.names v
  values : ∀ x, HasEntry v "values".toList x → IsSequence x ∧ ∀ item ∈ itemsOf x, IsComponent item

/-- The extension of a definition. -/
structure IsExtension (v : Value) : Prop where
  record : IsRecord Extension.fields.names v
  setter : ∀ x, HasEntry v "setter".toList x → IsSetter x
  substitution : ∀ x, HasEntry v "substitution".toList x → IsSubstitution x

/-- A definition, with or without an extension. -/
structure IsDefinition (v : Value) : Prop where
  record : IsRecord Definition.fields.names v
  extension : ∀ x, HasEntry v "x-k8s-cli".toList x → IsExtension x

/-- The section with the definitions; what stands under a key that is no string is no
definition. -/
structure IsSection (v : Value) : Prop where
  record : IsRecord documentFields.sectionFields.names v
  definitions : ∀ x, HasEntry v "definitions".toList x →
    IsMapping x ∧ ∀ key y, HasEntry x key y → IsDefinition y

/-- A whole document. -/
structure IsDocument (v : Value) : Prop where
  record : IsRecord documentFields.names v
  openAPI : ∀ x, HasEntry v "openAPI".toList x → IsSection x

/-! ## The levels -/

theorem exists_anyOptional (v : Value) : ∃ x, anyOptional v = .ok x :=
  (exists_optional_iff ⟨_, rfl⟩).2 ⟨v, rfl⟩

theorem exists_sequenceOf_iff {v : Value} :
    (∃ items, sequenceOf v = .ok items) ↔ IsSequence v := by
  simp [sequenceOf_eq_ok_iff]

/-- Null has no entries. -/
theorem not_hasEntry_of_null {v : Value} (h : v.untagged = .null) {key : Text} {x : Value} :
    ¬HasEntry v key x := by
  simp [HasEntry, entriesOf, h]

/-- Null is a record without fields. -/
theorem isRecord_of_null {v : Value} (h : v.untagged = .null) (names : List Text) :
    IsRecord names v :=
  ⟨Or.inl h, by simp [entriesOf, h], by simp [entriesOf, h]⟩

/-- Null is an extension that declares nothing. -/
theorem isExtension_of_null {v : Value} (h : v.untagged = .null) : IsExtension v :=
  ⟨isRecord_of_null h _, fun _ hx => absurd hx (not_hasEntry_of_null h),
    fun _ hx => absurd hx (not_hasEntry_of_null h)⟩

theorem exists_readSetter_iff {v : Value} :
    (∃ d, SetterDeclaration.read v = .ok d) ↔ IsSetter v := by
  have htake : ∀ d, ∀ name ∈ SetterDeclaration.fields.names, ∀ x,
      (∃ r, SetterDeclaration.fields.take d name x = .ok r) ↔
        (name = "listValues".toList → IsSequence x) ∧
        (name = "required".toList → ∃ b, x.untagged = .bool b) := by
    intro d name hname x
    replace hname : name ∈ ["name".toList, "value".toList, "listValues".toList,
      "setBy".toList, "required".toList] := hname
    simp only [List.mem_cons, List.not_mem_nil, or_false] at hname
    rcases hname with h | h | h | h | h
    · subst h
      exact iff_of_true (exists_map_iff.2 (exists_anyOptional x)) ⟨by simp, by simp⟩
    · subst h
      exact iff_of_true (exists_map_iff.2 (exists_anyOptional x)) ⟨by simp, by simp⟩
    · subst h
      show (∃ r, (sequenceOf x).map _ = .ok r) ↔ _
      rw [exists_map_iff, exists_sequenceOf_iff]
      simp
    · subst h
      exact iff_of_true (exists_map_iff.2 (exists_anyOptional x)) ⟨by simp, by simp⟩
    · subst h
      show (∃ r, (truthOf x).map _ = .ok r) ↔ _
      rw [exists_map_iff, exists_truthOf_iff]
      simp
  unfold SetterDeclaration.read
  rw [exists_read_iff htake]
  constructor
  · rintro ⟨hrecord, haccepts⟩
    refine ⟨hrecord, ?_, ?_⟩
    · intro x hx
      exact (haccepts _ (by decide) x hx).1 rfl
    · intro x hx
      exact (haccepts _ (by decide) x hx).2 rfl
  · intro h
    refine ⟨h.record, ?_⟩
    intro name _ x hx
    exact ⟨fun hname => h.listValues x (hname ▸ hx), fun hname => h.required x (hname ▸ hx)⟩

theorem exists_readComponent_iff {v : Value} :
    (∃ x, readComponent v = .ok x) ↔ IsComponent v := by
  have hrecord : (∃ r, componentFields.read none v = .ok r) ↔
      IsRecord componentFields.names v := by
    have htake : ∀ found, ∀ name ∈ componentFields.names, ∀ x,
        (∃ r, componentFields.take found name x = .ok r) ↔ True :=
      fun _ _ _ x => iff_of_true ⟨some x, rfl⟩ trivial
    rw [exists_read_iff htake]
    exact and_iff_left fun _ _ _ _ => trivial
  unfold readComponent
  split
  · rename_i fault hfault
    simp only [reduceCtorEq, exists_false, false_iff]
    intro h
    obtain ⟨r, hr⟩ := hrecord.2 h.record
    simp [hfault] at hr
  · rename_i hread
    simp only [reduceCtorEq, exists_false, false_iff]
    rintro ⟨-, x, hx⟩
    rcases read_eq_ok hread with ⟨-, hnone⟩ | ⟨_, _, y, _, _, htaken⟩
    · exact hnone referenceField (by decide) x hx
    · have hsome : (Except.ok (some y) : Shaped (Option Value)) = .ok none := htaken
      simp at hsome
  · rename_i reference hread
    refine iff_of_true ⟨reference, rfl⟩ ⟨hrecord.1 ⟨_, hread⟩, ?_⟩
    rcases read_eq_ok hread with ⟨hstart, -⟩ | ⟨name, hname, x, _, hx, -⟩
    · simp at hstart
    · obtain rfl : name = referenceField := List.mem_singleton.1 hname
      exact ⟨x, hx⟩

theorem exists_readAll_iff {α : Type} {read : Value → Shaped α} {items : List Value} :
    (∃ xs, readAll read items = .ok xs) ↔ ∀ item ∈ items, ∃ x, read item = .ok x := by
  induction items with
  | nil => simp [readAll]
  | cons item rest ih =>
      rw [List.forall_mem_cons, ← ih]
      cases hread : read item with
      | error fault => simp [readAll, hread]
      | ok x => simp [readAll, hread, exists_map_iff]

theorem exists_readSubstitution_iff {v : Value} :
    (∃ d, SubstitutionDeclaration.read v = .ok d) ↔ IsSubstitution v := by
  have htake : ∀ d, ∀ name ∈ SubstitutionDeclaration.fields.names, ∀ x,
      (∃ r, SubstitutionDeclaration.fields.take d name x = .ok r) ↔
        (name = "values".toList → IsSequence x ∧ ∀ item ∈ itemsOf x, IsComponent item) := by
    intro d name hname x
    replace hname : name ∈ ["name".toList, "pattern".toList, "values".toList] := hname
    simp only [List.mem_cons, List.not_mem_nil, or_false] at hname
    rcases hname with h | h | h
    · subst h
      exact iff_of_true (exists_map_iff.2 (exists_anyOptional x)) (by simp)
    · subst h
      exact iff_of_true (exists_map_iff.2 (exists_anyOptional x)) (by simp)
    · subst h
      simp only [forall_const, ← exists_readComponent_iff]
      have hname : ("values".toList == "name".toList) = false := by decide
      have hpattern : ("values".toList == "pattern".toList) = false := by decide
      unfold SubstitutionDeclaration.fields
      simp only [hname, hpattern, Bool.false_eq_true, if_false]
      cases hitems : sequenceOf x with
      | error fault =>
          have hnone : ¬IsSequence x := by simp [← exists_sequenceOf_iff, hitems]
          simp [hnone]
      | ok items =>
          obtain ⟨hsequence, rfl⟩ := sequenceOf_eq_ok_iff.1 hitems
          simp only [exists_map_iff, exists_readAll_iff, hsequence, true_and]
  unfold SubstitutionDeclaration.read
  rw [exists_read_iff htake]
  constructor
  · rintro ⟨hrecord, haccepts⟩
    exact ⟨hrecord, fun x hx => haccepts _ (by decide) x hx rfl⟩
  · intro h
    exact ⟨h.record, fun name _ x hx hname => h.values x (hname ▸ hx)⟩

theorem exists_readExtension_iff {v : Value} :
    (∃ e, Extension.read v = .ok e) ↔ IsExtension v := by
  have hsetter : IsSetter .null :=
    ⟨isRecord_of_null rfl _, fun _ hx => absurd hx (not_hasEntry_of_null rfl),
      fun _ hx => absurd hx (not_hasEntry_of_null rfl)⟩
  have hsubstitution : IsSubstitution .null :=
    ⟨isRecord_of_null rfl _, fun _ hx => absurd hx (not_hasEntry_of_null rfl)⟩
  have htake : ∀ e, ∀ name ∈ Extension.fields.names, ∀ x,
      (∃ r, Extension.fields.take e name x = .ok r) ↔
        (name = "setter".toList → IsSetter x) ∧
        (name = "substitution".toList → IsSubstitution x) := by
    intro e name hname x
    replace hname : name ∈ ["setter".toList, "substitution".toList] := hname
    simp only [List.mem_cons, List.not_mem_nil, or_false] at hname
    rcases hname with h | h
    · subst h
      show (∃ r, (optional SetterDeclaration.read x).map _ = .ok r) ↔ _
      rw [exists_map_iff, exists_optional_iff (exists_readSetter_iff.2 hsetter),
        exists_readSetter_iff]
      simp
    · subst h
      show (∃ r, (optional SubstitutionDeclaration.read x).map _ = .ok r) ↔ _
      rw [exists_map_iff, exists_optional_iff (exists_readSubstitution_iff.2 hsubstitution),
        exists_readSubstitution_iff]
      simp
  unfold Extension.read
  rw [exists_read_iff htake]
  constructor
  · rintro ⟨hrecord, haccepts⟩
    refine ⟨hrecord, ?_, ?_⟩
    · intro x hx
      exact (haccepts _ (by decide) x hx).1 rfl
    · intro x hx
      exact (haccepts _ (by decide) x hx).2 rfl
  · intro h
    refine ⟨h.record, ?_⟩
    intro name _ x hx
    exact ⟨fun hname => h.setter x (hname ▸ hx), fun hname => h.substitution x (hname ▸ hx)⟩

theorem exists_readDefinition_iff {v : Value} :
    (∃ d, Definition.read v = .ok d) ↔ IsDefinition v := by
  have htake : ∀ d, ∀ name ∈ Definition.fields.names, ∀ x,
      (∃ r, Definition.fields.take d name x = .ok r) ↔
        (name = "x-k8s-cli".toList → IsExtension x) := by
    intro d name hname x
    replace hname : name ∈ ["description".toList, "x-k8s-cli".toList] := hname
    simp only [List.mem_cons, List.not_mem_nil, or_false] at hname
    rcases hname with h | h
    · subst h
      exact iff_of_true (exists_map_iff.2 (exists_anyOptional x)) (by simp)
    · subst h
      show (∃ r, (optional Extension.read x).map _ = .ok r) ↔ _
      rw [exists_map_iff, exists_optional_iff (exists_readExtension_iff.2 (isExtension_of_null rfl)),
        exists_readExtension_iff]
      simp
  unfold Definition.read
  rw [exists_read_iff htake]
  constructor
  · rintro ⟨hrecord, haccepts⟩
    exact ⟨hrecord, fun x hx => haccepts _ (by decide) x hx rfl⟩
  · intro h
    exact ⟨h.record, fun name _ x hx hname => h.extension x (hname ▸ hx)⟩

/-! ## The document -/

/-- A value stands under a key of the definitions of a document. -/
def IsDefined (v : Value) (key : Text) (x : Value) : Prop :=
  ∃ outer definitions, HasEntry v "openAPI".toList outer ∧
    HasEntry outer "definitions".toList definitions ∧ HasEntry definitions key x

/-- The section is read when it is a record whose definitions are a mapping. -/
theorem exists_sectionOf_iff {v : Value} :
    (∃ entries, documentFields.sectionOf v = .ok entries) ↔
      IsRecord documentFields.sectionFields.names v ∧
        ∀ x, HasEntry v "definitions".toList x → IsMapping x := by
  have htake : ∀ found, ∀ name ∈ documentFields.sectionFields.names, ∀ x,
      (∃ r, documentFields.sectionFields.take found name x = .ok r) ↔ IsMapping x := by
    intro found name _ x
    show (∃ r, mappingOf "a YAML mapping".toList x = .ok r) ↔ _
    simp [mappingOf_eq_ok_iff]
  unfold documentFields.sectionOf
  rw [exists_read_iff htake]
  have hnames : documentFields.sectionFields.names = ["definitions".toList] := rfl
  simp only [hnames, List.forall_mem_singleton]

/-- The definitions that are read from the section are its entries. -/
theorem mem_sectionOf_iff {v : Value} {entries : List (Value × Value)}
    (h : documentFields.sectionOf v = .ok entries) {e : Value × Value} :
    e ∈ entries ↔ ∃ x, HasEntry v "definitions".toList x ∧ e ∈ entriesOf x := by
  have hrecord := (exists_sectionOf_iff.1 ⟨entries, h⟩).1
  have hmem : "definitions".toList ∈ documentFields.sectionFields.names := List.mem_singleton_self _
  rcases read_eq_ok h with ⟨rfl, hnone⟩ | ⟨name, hname, x, _, hx, htaken⟩
  · simp only [List.not_mem_nil, hnone _ hmem, false_and, exists_false]
  · obtain rfl : name = "definitions".toList := List.mem_singleton.1 hname
    have hentries : entriesOf x = entries := (mappingOf_eq_ok_iff.1 htaken).2
    rw [← hentries]
    constructor
    · intro he
      exact ⟨x, hx, he⟩
    · rintro ⟨y, hy, he⟩
      rwa [hrecord.unique hname hx hy]

theorem exists_definitionsOf_iff {v : Value} :
    (∃ entries, definitionsOf v = .ok entries) ↔
      IsRecord documentFields.names v ∧ ∀ x, HasEntry v "openAPI".toList x →
        IsRecord documentFields.sectionFields.names x ∧
          ∀ y, HasEntry x "definitions".toList y → IsMapping y := by
  have htake : ∀ found, ∀ name ∈ documentFields.names, ∀ x,
      (∃ r, documentFields.take found name x = .ok r) ↔
        ∃ entries, documentFields.sectionOf x = .ok entries :=
    fun _ _ _ _ => exists_optional_iff ⟨[], rfl⟩
  unfold definitionsOf
  rw [exists_map_iff, exists_read_iff htake]
  have hnames : documentFields.names = ["openAPI".toList] := rfl
  simp only [hnames, List.forall_mem_singleton, exists_sectionOf_iff]

theorem mem_definitionsOf_iff {v : Value} {entries : List (Value × Value)}
    (h : definitionsOf v = .ok entries) {e : Value × Value} :
    e ∈ entries ↔ ∃ outer x, HasEntry v "openAPI".toList outer ∧
      HasEntry outer "definitions".toList x ∧ e ∈ entriesOf x := by
  have hrecord := (exists_definitionsOf_iff.1 ⟨entries, h⟩).1
  have hmem : "openAPI".toList ∈ documentFields.names := List.mem_singleton_self _
  unfold definitionsOf at h
  cases hread : documentFields.read none v with
  | error fault => simp [hread, Except.map] at h
  | ok found =>
      obtain rfl : found.getD [] = entries := by simpa [hread, Except.map] using h
      rcases read_eq_ok hread with ⟨rfl, hnone⟩ | ⟨name, hname, outer, _, houter, htaken⟩
      · simp only [Option.getD_none, List.not_mem_nil, hnone _ hmem, false_and, exists_false]
      · obtain rfl : name = "openAPI".toList := List.mem_singleton.1 hname
        have honly : ∀ other, HasEntry v "openAPI".toList other → other = outer :=
          fun other hother => hrecord.unique hname hother houter
        rcases optional_eq_ok htaken with ⟨rfl, rfl⟩ | ⟨inner, hinner, rfl⟩
        · constructor
          · intro he
            simp at he
          · rintro ⟨other, x, hother, hx, -⟩
            rw [honly other hother] at hx
            exact absurd hx (not_hasEntry_of_null rfl)
        · rw [Option.getD_some, mem_sectionOf_iff hinner]
          constructor
          · rintro ⟨x, hx, he⟩
            exact ⟨outer, x, houter, hx, he⟩
          · rintro ⟨other, x, hother, hx, he⟩
            exact ⟨x, honly other hother ▸ hx, he⟩

theorem exists_recordsOfEntry_iff {e : Value × Value} :
    (∃ r, recordsOfEntry e = .ok r) ↔
      ∀ key, stringOf? e.1 = some key → IsDefinition e.2 := by
  unfold recordsOfEntry
  cases stringOf? e.1 with
  | none => simp
  | some key =>
      simp only [← exists_readDefinition_iff]
      cases Definition.read e.2 <;> simp

/-- All definitions are read when each of them is. -/
theorem exists_recordsOfEntries_iff {entries : List (Value × Value)} :
    (∃ r, recordsOfEntries entries = .ok r) ↔
      ∀ e ∈ entries, ∀ key, stringOf? e.1 = some key → IsDefinition e.2 := by
  induction entries with
  | nil => simp [recordsOfEntries]
  | cons e rest ih =>
      rw [List.forall_mem_cons, ← ih, ← exists_recordsOfEntry_iff]
      cases hhere : recordsOfEntry e with
      | error reason => simp [recordsOfEntries, hhere]
      | ok here => simp [recordsOfEntries, hhere, exists_map_iff]

/-- The records of a value are found exactly when it is a document. -/
theorem exists_ofValue_iff {v : Value} : (∃ r, ofValue v = .ok r) ↔ IsDocument v := by
  unfold ofValue
  split
  · rename_i hnull
    refine iff_of_true ⟨{}, rfl⟩ ⟨isRecord_of_null hnull _, ?_⟩
    intro x hx
    exact absurd hx (not_hasEntry_of_null hnull)
  · cases hread : definitionsOf v with
    | error fault =>
        have hnot : ¬∃ entries, definitionsOf v = .ok entries := by simp [hread]
        rw [exists_definitionsOf_iff] at hnot
        simp only [reduceCtorEq, exists_false, false_iff]
        intro h
        refine hnot ⟨h.record, fun x hx => ?_⟩
        exact ⟨(h.openAPI x hx).record, fun y hy => ((h.openAPI x hx).definitions y hy).1⟩
    | ok entries =>
        obtain ⟨hrecord, hsection⟩ := exists_definitionsOf_iff.1 ⟨entries, hread⟩
        simp only [exists_recordsOfEntries_iff]
        constructor
        · intro hall
          refine ⟨hrecord, fun outer houter => ⟨(hsection outer houter).1, fun x hx => ?_⟩⟩
          refine ⟨(hsection outer houter).2 x hx, ?_⟩
          rintro key y ⟨e, he, hkey, rfl⟩
          exact hall e ((mem_definitionsOf_iff hread).2 ⟨outer, x, houter, hx, he⟩) key hkey
        · intro h e he key hkey
          obtain ⟨outer, x, houter, hx, he⟩ := (mem_definitionsOf_iff hread).1 he
          exact ((h.openAPI outer houter).definitions x hx).2 key e.2 ⟨e, he, hkey, rfl⟩

/-! ## The file -/

/-- A metadata file whose one definition is left empty. -/
def emptyDefinitionFile : Text :=
  "openAPI:\n".toList ++
  "  definitions:\n".toList ++
  "    io.k8s.cli.setters.replicas:\n".toList

/-- The key of that definition. -/
def emptyDefinitionKey : Text := "io.k8s.cli.setters.replicas".toList

/-- Whether null stands under a key of the definitions. -/
def definesNull (key : Text) (v : Value) : Bool :=
  match definitionsOf v with
  | .ok entries => entries.any isNullEntry
  | .error _ => false
where
  isNullEntry (e : Value × Value) : Bool :=
    match stringOf? e.1, e.2.untagged with
    | some name, .null => name == key
    | _, _ => false

theorem exists_isDefined_null {key : Text} {v : Value} (h : definesNull key v = true) :
    ∃ x, IsDefined v key x ∧ x.untagged = .null := by
  unfold definesNull at h
  split at h
  · rename_i entries hread
    obtain ⟨e, he, hentry⟩ := List.any_eq_true.1 h
    obtain ⟨outer, definitions, houter, hdefinitions, hmem⟩ := (mem_definitionsOf_iff hread).1 he
    unfold definesNull.isNullEntry at hentry
    split at hentry
    · rename_i name hkey hvalue
      obtain rfl : name = key := by simpa using hentry
      exact ⟨e.2, ⟨outer, definitions, houter, hdefinitions, e, hmem, hkey, rfl⟩, hvalue⟩
    · simp at hentry
  · simp at h

end SetterReport.Metadata
