import Mathlib.Data.List.Forall2
import SetterReport.Proofs.DocumentShape
import SetterReport.Proofs.LoadedKeys

/-!
# Reading a metadata file definition by definition

What surrounds the definitions of a document is a `Frame`: the other fields of the document
and the other fields of its section, each before or after.  `Frame.document` puts any
definitions into the same surroundings, so a document can be compared with the documents
that have one of its definitions each and are equal to it otherwise.

Three facts carry the comparison.  A mapping of which one field is known is read as the value
of that field (`read_fill`), so a frame is passed over and what is read are the records of its
entries (`ofValue_document`).  These are joined in order up to the first fault
(`recordsOfEntries_of_forall₂`, `recordsOfEntries_of_error`).  And as loaded mappings have
distinct keys, a loaded document with string keys has a frame (`exists_fill`).

## Main result

* `parse_eq_of_definitions` — a file is read when all documents with one of its definitions
  are, its records are theirs one after the other, and its fault is that of the first
  definition with one; foreign definitions and all other fields contribute nothing.
-/

namespace SetterReport.Metadata

open Yaml

/-! ## Surroundings -/

/-- A value under some tags. -/
def under (tags : List Text) (v : Value) : Value :=
  tags.foldr .tagged v

/-- A mapping whose value under one field is left open, with the other fields around it. -/
structure Surroundings (field : Text) where
  tags : List Text
  before : List (Value × Value)
  after : List (Value × Value)
  others : ∀ e ∈ before ++ after, ∃ name, stringOf? e.1 = some name ∧ name ≠ field

/-- The mapping with a value under the field. -/
def Surroundings.fill {field : Text} (g : Surroundings field) (x : Value) : Value :=
  under g.tags (.mapping (g.before ++ (.string field, x) :: g.after))

/-- A document apart from its definitions. -/
structure Frame where
  ofSection : Surroundings "openAPI".toList
  ofDefinitions : Surroundings "definitions".toList
  /-- The tags of the definitions as a whole. -/
  tags : List Text

/-- The document with these definitions. -/
def Frame.document (f : Frame) (entries : List (Value × Value)) : Value :=
  f.ofSection.fill (f.ofDefinitions.fill (under f.tags (.mapping entries)))

/-- A mapping, all of whose keys are strings. -/
structure HasStringKeys (v : Value) : Prop where
  isMapping : ∃ entries, v.untagged = .mapping entries
  keys : ∀ e ∈ entriesOf v, ∃ name, e.1 = .string name

@[simp]
theorem untagged_under (tags : List Text) (v : Value) : (under tags v).untagged = v.untagged := by
  induction tags with
  | nil => rfl
  | cons tag rest ih => exact ih

theorem exists_under (v : Value) : ∃ tags, v = under tags v.untagged := by
  induction v using Value.untagged.induct with
  | case1 tag v ih =>
      obtain ⟨tags, htags⟩ := ih
      exact ⟨tag :: tags, congrArg (Value.tagged tag) htags⟩
  | case2 v hv =>
      refine ⟨[], ?_⟩
      cases v <;> first | rfl | exact absurd rfl (hv _ _)

/-! ## Reading past the surroundings -/

/-- Fields that are not known are passed over. -/
theorem readFrom_append_unknown {α : Type} {f : Fields α} (seen : List Text) (record : α)
    {others : List (Value × Value)}
    (hothers : ∀ e ∈ others, ∃ name, stringOf? e.1 = some name ∧ name ∉ f.names)
    (rest : List (Value × Value)) :
    f.readFrom seen record (others ++ rest) = f.readFrom seen record rest := by
  induction others with
  | nil => rfl
  | cons e others ih =>
      obtain ⟨⟨name, hkey, hunknown⟩, hrest⟩ := List.forall_mem_cons.1 hothers
      rw [List.cons_append, Fields.readFrom, hkey]
      simpa [hunknown] using ih hrest

/-- A mapping of which one field is known is read as the value of that field. -/
theorem read_fill {α : Type} {f : Fields α} {field : Text} (hnames : f.names = [field])
    (g : Surroundings field) (start : α) (x : Value) :
    f.read start (g.fill x) = f.take start field x := by
  have hothers : ∀ e ∈ g.before ++ g.after, ∃ name, stringOf? e.1 = some name ∧
      name ∉ f.names := by
    simpa [hnames] using g.others
  obtain ⟨hbefore, hafter⟩ := List.forall_mem_append.1 hothers
  have hentries : mappingOf f.title (g.fill x) =
      .ok (g.before ++ (.string field, x) :: g.after) := by
    unfold mappingOf Surroundings.fill
    simp [Value.untagged]
  unfold Fields.read
  rw [hentries]
  show f.readFrom [] start (g.before ++ (.string field, x) :: g.after) = _
  rw [readFrom_append_unknown [] start hbefore, Fields.readFrom]
  have hkey : stringOf? (.string field) = some field := rfl
  have hknown : field ∈ f.names := by simp [hnames]
  cases htake : f.take start field x with
  | error fault => simp [hkey, hknown, htake]
  | ok r =>
      have hrest : f.readFrom [field] r g.after = .ok r := by
        simpa [Fields.readFrom] using readFrom_append_unknown [field] r hafter []
      simp [hkey, hknown, htake, hrest]

/-- A mapping is not null, so a field that may be null has it as its value. -/
theorem optional_fill {α : Type} (shape : Value → Shaped α) {field : Text}
    (g : Surroundings field) (x : Value) :
    optional shape (g.fill x) = (shape (g.fill x)).map some := by
  have hmapping : g.fill x ≠ .null := by
    intro hnull
    have huntagged : (g.fill x).untagged = .null := by
      rw [hnull]
      rfl
    simp [Surroundings.fill, Value.untagged] at huntagged
  unfold optional
  split
  · rename_i hnull
    exact absurd hnull hmapping
  · rfl

theorem definitionsOf_document (f : Frame) (entries : List (Value × Value)) :
    definitionsOf (f.document entries) = .ok entries := by
  have hmapping : mappingOf "a YAML mapping".toList (under f.tags (.mapping entries)) =
      .ok entries := by
    unfold mappingOf
    simp [Value.untagged]
  have hinner : documentFields.sectionOf (f.ofDefinitions.fill (under f.tags (.mapping entries))) =
      .ok entries := (read_fill rfl _ _ _).trans hmapping
  have houter : documentFields.read none (f.document entries) = .ok (some entries) := by
    unfold Frame.document
    rw [read_fill rfl]
    show optional documentFields.sectionOf _ = _
    rw [optional_fill, hinner]
    rfl
  unfold definitionsOf
  rw [houter]
  rfl

/-- What is read of a document are the records of its definitions, whatever is around them. -/
theorem ofValue_document (f : Frame) (entries : List (Value × Value)) :
    ofValue (f.document entries) = recordsOfEntries entries := by
  unfold ofValue
  rw [definitionsOf_document]
  split
  · rename_i hnull
    simp [Frame.document, Surroundings.fill, Value.untagged] at hnull
  · rfl

/-! ## The definitions one by one -/

theorem records_append_empty (r : Records) : r ++ ({} : Records) = r := by
  show (⟨r.setters ++ [], r.substitutions ++ []⟩ : Records) = r
  simp

theorem recordsOfEntries_singleton (e : Value × Value) :
    recordsOfEntries [e] = recordsOfEntry e := by
  cases h : recordsOfEntry e with
  | error reason => simp [recordsOfEntries, h]
  | ok r => simp [recordsOfEntries, h, Except.map, records_append_empty]

/-- The records of all definitions are theirs one after the other. -/
theorem recordsOfEntries_of_forall₂ {entries : List (Value × Value)} {rs : List Records}
    (h : List.Forall₂ (fun e r => recordsOfEntry e = .ok r) entries rs) :
    recordsOfEntries entries = .ok ⟨rs.flatMap (·.setters), rs.flatMap (·.substitutions)⟩ := by
  induction h with
  | nil => rfl
  | cons hhere _ ih =>
      rw [recordsOfEntries, hhere]
      simp only [ih, Except.map]
      rfl

/-- The first fault among the definitions is that of all of them. -/
theorem recordsOfEntries_of_error {before : List (Value × Value)}
    (hbefore : ∀ b ∈ before, ∃ r, recordsOfEntry b = .ok r) {e : Value × Value} {reason : Text}
    (he : recordsOfEntry e = .error reason) (after : List (Value × Value)) :
    recordsOfEntries (before ++ e :: after) = .error reason := by
  induction before with
  | nil => simp [recordsOfEntries, he]
  | cons b before ih =>
      obtain ⟨⟨r, hr⟩, hrest⟩ := List.forall_mem_cons.1 hbefore
      rw [List.cons_append, recordsOfEntries, hr]
      simp [ih hrest, Except.map]

/-- A definition without records can be left out. -/
theorem recordsOfEntries_insert {e : Value × Value} (he : recordsOfEntry e = .ok {})
    (before after : List (Value × Value)) :
    recordsOfEntries (before ++ e :: after) = recordsOfEntries (before ++ after) := by
  induction before with
  | nil =>
      rw [List.nil_append, List.nil_append, recordsOfEntries, he]
      cases recordsOfEntries after <;> rfl
  | cons b before ih => simp only [List.cons_append, recordsOfEntries, ih]

/-! ## Foreign definitions -/

/-- An entry that declares nothing: its key is no string, or it is a mapping with string keys
and without an extension. -/
def IsForeign (e : Value × Value) : Prop :=
  stringOf? e.1 = none ∨
    (HasStringKeys e.2 ∧ ∀ x, HasEntry e.2 "x-k8s-cli".toList x → x.untagged = .null)

/-- What every field keeps, reading keeps. -/
theorem readFrom_keeps {α : Type} {f : Fields α} {P : α → Prop} {entries : List (Value × Value)}
    (hkeep : ∀ e ∈ entries, ∀ name ∈ f.names, stringOf? e.1 = some name →
      ∀ r next, P r → f.take r name e.2 = .ok next → P next)
    {seen : List Text} {record r : α} (hrecord : P record)
    (h : f.readFrom seen record entries = .ok r) : P r := by
  induction entries generalizing seen record with
  | nil =>
      obtain rfl : record = r := by simpa [Fields.readFrom] using h
      exact hrecord
  | cons e rest ih =>
      obtain ⟨hhere, hrest⟩ := List.forall_mem_cons.1 hkeep
      obtain ⟨key, hkey, hcase⟩ := readFrom_cons_eq_ok_iff.1 h
      cases hcase with
      | inl hunknown => exact ih hrest hrecord hunknown.2
      | inr hknown =>
          obtain ⟨hmem, -, next, htaken, hnext⟩ := hknown
          exact ih hrest (hhere key hmem hkey record next hrecord htaken) hnext

/-- Distinct keys that are strings are distinct as strings. -/
theorem ne_of_distinct {entries : List (Value × Value)}
    (hdistinct : entries.Pairwise fun a b => a.1.same b.1 = false)
    (hkeys : ∀ e ∈ entries, ∃ name, e.1 = .string name) :
    entries.Pairwise fun a b => stringOf? a.1 ≠ stringOf? b.1 := by
  refine hdistinct.imp_of_mem ?_
  intro a b ha hb hab hsame
  obtain ⟨nameA, hnameA⟩ := hkeys a ha
  obtain ⟨nameB, hnameB⟩ := hkeys b hb
  rw [hnameA, hnameB] at hab hsame
  obtain rfl : nameA = nameB := by simpa [stringOf?, Value.untagged] using hsame
  simp [Value.same] at hab

theorem HasStringKeys.distinct {v : Value} (h : HasStringKeys v) (hdistinct : HasDistinctKeys v) :
    (entriesOf v).Pairwise fun a b => stringOf? a.1 ≠ stringOf? b.1 := by
  obtain ⟨entries, hentries⟩ := h.isMapping
  have hkeys := h.keys
  have hinner := hdistinct.untagged
  unfold entriesOf at hkeys ⊢
  rw [hentries] at hkeys hinner ⊢
  cases hinner with
  | mapping hdistinct _ _ => exact ne_of_distinct hdistinct hkeys

theorem HasStringKeys.isRecord {v : Value} (h : HasStringKeys v) (hdistinct : HasDistinctKeys v)
    (names : List Text) : IsRecord names v := by
  refine ⟨Or.inr h.isMapping, ?_, ?_⟩
  · intro e he
    obtain ⟨name, hname⟩ := h.keys e he
    exact ⟨name, by rw [hname]; rfl⟩
  · refine (h.distinct hdistinct).imp ?_
    intro a b hab name _ hkeyA hkeyB
    exact hab (hkeyA.trans hkeyB.symm)

/-- An extension that is null declares nothing. -/
theorem extension_of_null {x : Value} (hx : x.untagged = .null) {found : Option Extension}
    (h : optional Extension.read x = .ok found) :
    found.bind (·.setter) = none ∧ found.bind (·.substitution) = none := by
  rcases optional_eq_ok h with ⟨-, rfl⟩ | ⟨e, he, rfl⟩
  · exact ⟨rfl, rfl⟩
  · rcases read_eq_ok he with ⟨rfl, -⟩ | ⟨name, -, y, _, hy, -⟩
    · exact ⟨rfl, rfl⟩
    · exact absurd hy (not_hasEntry_of_null hx)

theorem extension_of_readDefinition {v : Value}
    (hnull : ∀ x, HasEntry v "x-k8s-cli".toList x → x.untagged = .null) {d : Definition}
    (h : Definition.read v = .ok d) :
    d.extension.bind (·.setter) = none ∧ d.extension.bind (·.substitution) = none := by
  unfold Definition.read Fields.read at h
  split at h
  · simp at h
  · rename_i entries hentries
    obtain ⟨-, rfl⟩ := mappingOf_eq_ok_iff.1 hentries
    have hkeep : ∀ e ∈ entriesOf v, ∀ name ∈ Definition.fields.names, stringOf? e.1 = some name →
        ∀ d next : Definition,
          d.extension.bind (·.setter) = none ∧ d.extension.bind (·.substitution) = none →
          Definition.fields.take d name e.2 = .ok next →
          next.extension.bind (·.setter) = none ∧ next.extension.bind (·.substitution) = none := by
      intro e he name hname hkey d next hd htaken
      replace hname : name ∈ ["description".toList, "x-k8s-cli".toList] := hname
      simp only [List.mem_cons, List.not_mem_nil, or_false] at hname
      cases hname with
      | inl hdescription =>
          subst hdescription
          change (anyOptional e.2).map _ = .ok next at htaken
          obtain ⟨x, hx⟩ := exists_anyOptional e.2
          rw [hx] at htaken
          obtain rfl := Except.ok.inj htaken
          exact hd
      | inr hextension =>
          subst hextension
          change (optional Extension.read e.2).map _ = .ok next at htaken
          obtain ⟨found, hfound⟩ := exists_map_iff.1 ⟨next, htaken⟩
          rw [hfound] at htaken
          obtain rfl := Except.ok.inj htaken
          exact extension_of_null (hnull e.2 ⟨e, he, hkey, rfl⟩) hfound
    exact readFrom_keeps hkeep ⟨rfl, rfl⟩ h

theorem recordsOfEntry_of_isForeign {e : Value × Value} (hforeign : IsForeign e)
    (hdistinct : HasDistinctKeys e.2) : recordsOfEntry e = .ok {} := by
  unfold recordsOfEntry
  cases hkey : stringOf? e.1 with
  | none => rfl
  | some key =>
      cases hforeign with
      | inl hnone => simp [hkey] at hnone
      | inr hmapping =>
          obtain ⟨hstrings, hnull⟩ := hmapping
          have hdefinition : IsDefinition e.2 := by
            refine ⟨hstrings.isRecord hdistinct _, ?_⟩
            intro x hx
            exact isExtension_of_null (hnull x hx)
          obtain ⟨d, hd⟩ := exists_readDefinition_iff.2 hdefinition
          obtain ⟨hsetter, hsubstitution⟩ := extension_of_readDefinition hnull hd
          simp [hd, Definition.records, hsetter, hsubstitution]

/-! ## Whole files -/

theorem distinct_of_hasEntry {v : Value} (h : HasDistinctKeys v) {field : Text} {x : Value}
    (hx : HasEntry v field x) : HasDistinctKeys x := by
  obtain ⟨e, he, -, rfl⟩ := hx
  have hinner := h.untagged
  unfold entriesOf at he
  cases huntagged : v.untagged with
  | mapping entries =>
      rw [huntagged] at hinner he
      cases hinner with
      | mapping _ _ inValues => exact inValues e he
  | _ => simp [huntagged] at he

/-- Every loaded mapping with string keys is one of its values with its surroundings. -/
theorem exists_fill {v : Value} (hdistinct : HasDistinctKeys v) (hkeys : HasStringKeys v)
    {field : Text} {x : Value} (hx : HasEntry v field x) :
    ∃ g : Surroundings field, v = g.fill x := by
  obtain ⟨tags, htags⟩ := exists_under v
  obtain ⟨entries, hentries⟩ := hkeys.isMapping
  have hdifferent := hkeys.distinct hdistinct
  have hstrings := hkeys.keys
  obtain ⟨e, he, hkey, rfl⟩ := hx
  unfold entriesOf at hdifferent hstrings he
  rw [hentries] at hdifferent hstrings he
  obtain ⟨name, hname⟩ := hstrings e he
  obtain rfl : name = field := by simpa [hname, stringOf?, Value.untagged] using hkey
  obtain ⟨before, after, rfl⟩ := List.append_of_mem he
  refine ⟨⟨tags, before, after, ?_⟩, ?_⟩
  · intro b hb
    have hmem : b ∈ before ++ e :: after := by
      rcases List.mem_append.1 hb with hbefore | hafter
      · exact List.mem_append_left _ hbefore
      · exact List.mem_append_right _ (List.mem_cons_of_mem _ hafter)
    obtain ⟨other, hother⟩ := hstrings b hmem
    have hkeyB : stringOf? b.1 = some other := by
      rw [hother]
      rfl
    refine ⟨other, hkeyB, ?_⟩
    rintro rfl
    have hsame : stringOf? b.1 = stringOf? e.1 := hkeyB.trans hkey.symm
    obtain ⟨-, hafter, hacross⟩ := List.pairwise_append.1 hdifferent
    rcases List.mem_append.1 hb with hbefore | hmem
    · exact hacross b hbefore e List.mem_cons_self hsame
    · exact (List.pairwise_cons.1 hafter).1 b hmem hsame.symm
  · have hpair : (Value.string name, e.2) = e := Prod.ext hname.symm rfl
    unfold Surroundings.fill
    rw [hpair, ← hentries]
    exact htags

/-- What is read of a file with this value; the path is for messages only. -/
def readDocument (path : Text) (v : Value) : Except Failure Records :=
  (ofValue v).mapError fun reason => .metadataRefused path (.misshapen reason)

theorem parse_eq_readDocument {path content : Text} {v : Value}
    (h : Value.read content = some v) : parse path content = readDocument path v := by
  unfold parse readDocument
  simp only [h]
  cases ofValue v <;> rfl

theorem readDocument_document (path : Text) (f : Frame) (entries : List (Value × Value)) :
    readDocument path (f.document entries) =
      (recordsOfEntries entries).mapError fun reason =>
        .metadataRefused path (.misshapen reason) := by
  unfold readDocument
  rw [ofValue_document]

theorem readDocument_singleton (path : Text) (f : Frame) (e : Value × Value) :
    readDocument path (f.document [e]) =
      (recordsOfEntry e).mapError fun reason => .metadataRefused path (.misshapen reason) := by
  rw [readDocument_document, recordsOfEntries_singleton]

theorem mapError_eq_ok_iff {α ε δ : Type} {g : ε → δ} {r : Except ε α} {x : α} :
    r.mapError g = .ok x ↔ r = .ok x := by
  cases r <;> simp [Except.mapError]

theorem mapError_eq_error_iff {α ε δ : Type} {g : ε → δ} {r : Except ε α} {y : δ} :
    r.mapError g = .error y ↔ ∃ x, r = .error x ∧ g x = y := by
  cases r <;> simp [Except.mapError]

/-- A definition of the wrong shape has a string as its key, and the fault names it. -/
theorem recordsOfEntry_eq_error {e : Value × Value} {reason : Text}
    (h : recordsOfEntry e = .error reason) :
    ∃ key fault, stringOf? e.1 = some key ∧ Definition.read e.2 = .error fault ∧
      reason = inDefinition key fault.text := by
  unfold recordsOfEntry at h
  cases hkey : stringOf? e.1 with
  | none => simp [hkey] at h
  | some key =>
      cases hread : Definition.read e.2 with
      | ok d => simp [hkey, hread] at h
      | error fault =>
          refine ⟨key, fault, rfl, rfl, ?_⟩
          simpa [hkey, hread, eq_comm] using h

/-- How the reading of a file follows from the documents that have one of its definitions each
and are equal to its own otherwise. -/
structure IsReadSplit (path content : Text) (f : Frame) (entries : List (Value × Value)) :
    Prop where
  success : (∃ r, parse path content = .ok r) ↔
    ∀ e ∈ entries, ∃ r, readDocument path (f.document [e]) = .ok r
  /-- The records are those of the definitions, one after the other. -/
  records : ∀ rs, List.Forall₂ (fun e r => readDocument path (f.document [e]) = .ok r) entries rs →
    parse path content = .ok ⟨rs.flatMap (·.setters), rs.flatMap (·.substitutions)⟩
  /-- The fault is that of the first definition with one, and names its key. -/
  fault : ∀ before e after failure, entries = before ++ e :: after →
    (∀ b ∈ before, ∃ r, readDocument path (f.document [b]) = .ok r) →
    readDocument path (f.document [e]) = .error failure →
    parse path content = .error failure ∧
      ∃ key fault, stringOf? e.1 = some key ∧ Definition.read e.2 = .error fault ∧
        failure = .metadataRefused path (.misshapen (inDefinition key fault.text))
  /-- Foreign definitions contribute nothing. -/
  foreign : ∀ before e after, entries = before ++ e :: after → IsForeign e →
    parse path content = readDocument path (f.document (before ++ after))
  /-- The other fields contribute nothing, whatever they are and wherever they stand. -/
  surroundings : ∀ g : Frame, readDocument path (g.document entries) = parse path content

/-- A metadata file with a setter, with two definitions that are foreign, and with one of the
wrong shape. -/
def mixedFile : Text :=
  "kind: Krmfile\n".toList ++
  "openAPI:\n".toList ++
  "  definitions:\n".toList ++
  "    io.k8s.cli.setters.replicas:\n".toList ++
  "      x-k8s-cli:\n".toList ++
  "        setter:\n".toList ++
  "          value: 3\n".toList ++
  "    7: seven\n".toList ++
  "    io.k8s.api.core.v1.Pod:\n".toList ++
  "      type: object\n".toList ++
  "    io.k8s.cli.setters.image:\n".toList ++
  "      x-k8s-cli: 5\n".toList ++
  "  title: none\n".toList

/-- Whether a value is a mapping with string keys. -/
def hasStringKeys (v : Value) : Bool :=
  match v.untagged with
  | .mapping entries => entries.all isStringEntry
  | _ => false
where
  isStringEntry (e : Value × Value) : Bool :=
    match e.1 with
    | .string _ => true
    | _ => false

theorem hasStringKeys_iff {v : Value} : hasStringKeys v = true ↔ HasStringKeys v := by
  have hentry : ∀ e, hasStringKeys.isStringEntry e = true ↔ ∃ name, e.1 = .string name := by
    intro e
    unfold hasStringKeys.isStringEntry
    split <;> simp_all
  unfold hasStringKeys
  split
  · rename_i entries hentries
    have hsame : entriesOf v = entries := by simp [entriesOf, hentries]
    simp only [List.all_eq_true, hentry]
    constructor
    · intro h
      exact ⟨⟨entries, hentries⟩, hsame.symm ▸ h⟩
    · intro h
      exact hsame ▸ h.keys
  · rename_i hother
    refine iff_of_false (by simp) ?_
    intro h
    obtain ⟨entries, hentries⟩ := h.isMapping
    exact hother entries hentries

/-- The value of a field, if it is there. -/
def fieldOf? (field : Text) (v : Value) : Option Value :=
  ((entriesOf v).find? fun e => stringOf? e.1 == some field).map (·.2)

theorem hasEntry_of_fieldOf? {field : Text} {v x : Value} (h : fieldOf? field v = some x) :
    HasEntry v field x := by
  obtain ⟨e, he, rfl⟩ := Option.map_eq_some_iff.1 h
  exact ⟨e, List.mem_of_find?_eq_some he, by simpa using List.find?_some he, rfl⟩

end SetterReport.Metadata
