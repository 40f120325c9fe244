import Mathlib.Logic.Relation
import SetterReport.Metadata
import SetterReport.Proofs.LeastClosure
import SetterReport.Proofs.ReferenceTarget

/-!
# The graph of the definitions

A metadata file stores its definitions under keys, and the components of a substitution are
pointers at them: `#/definitions/` followed by a key.  This makes the definitions a graph.
The search for the substitutions that use a setter sees no keys; it goes by the names of the
records and builds the pointers from these.

The two ways agree where a key says the name: it is the kind marker followed by the name,
and a name that is written down says the same (`Declared.IsKeyed`).  The pointer built from
a name is then the pointer at the definition (`Declared.pointer_of_setter?`,
`Declared.pointer_of_substitution?`), so a use is an edge, and a chain of uses is a path
(`uses_iff_reaches`).

## Main result

* `parse_count_eq_sum` — in such a file a setter is counted by its own references and by
  those of exactly the substitutions from which there is a path to its definition; and what
  is displayed for a pointer at a definition is the name of the definition.
-/

namespace SetterReport.Reference

theorem isPrefixOf?_append (kind rest : Text) : kind.isPrefixOf? (kind ++ rest) = some rest :=
  List.isPrefixOf?_eq_some_iff_append_eq.2 rfl

end SetterReport.Reference

namespace SetterReport.Metadata

open Yaml
open Usage (count_eq_add_sum)

/-! ## Declared definitions -/

/-- A definition and the key under which it is stored. -/
structure Declared where
  key : Text
  definition : Definition

namespace Declared

/-- The pointer at the definition. -/
def pointer (d : Declared) : Text :=
  Reference.definitions ++ d.key

/-- What is said of the definition as a setter. -/
def asSetter? (d : Declared) : Option SetterDeclaration :=
  d.definition.extension.bind (·.setter)

/-- What is said of the definition as a substitution. -/
def asSubstitution? (d : Declared) : Option SubstitutionDeclaration :=
  d.definition.extension.bind (·.substitution)

/-- The record of the definition, if it is that of a setter. -/
def setter? (d : Declared) : Option Setter :=
  d.asSetter?.map (SetterDeclaration.record d.key d.definition.description)

/-- The record of the definition, if it is that of a substitution. -/
def substitution? (d : Declared) : Option Substitution :=
  d.asSubstitution?.map (SubstitutionDeclaration.record d.key)

end Declared

/-- The definition in an entry, if its key is a string and its shape is right. -/
def declaredAt (entry : Value × Value) : Option Declared :=
  match stringOf? entry.1, Definition.read entry.2 with
  | some key, .ok d => some ⟨key, d⟩
  | _, _ => none

/-- The definitions of a document, in its order. -/
def declaredOf (v : Value) : List Declared :=
  match definitionsOf v with
  | .ok entries => entries.filterMap declaredAt
  | .error _ => []

/-- The definitions in the text of a metadata file. -/
def declaredIn (content : Text) : List Declared :=
  ((Value.read content).map declaredOf).getD []

/-! ## Their records -/

theorem recordsOfEntry_eq_ok {e : Value × Value} {r : Records} (h : recordsOfEntry e = .ok r) :
    r.setters = ((declaredAt e).bind Declared.setter?).toList ∧
      r.substitutions = ((declaredAt e).bind Declared.substitution?).toList := by
  unfold recordsOfEntry at h
  unfold declaredAt
  cases hkey : stringOf? e.1 with
  | none =>
      obtain rfl : ({} : Records) = r := by simpa [hkey] using h
      exact ⟨rfl, rfl⟩
  | some key =>
      cases hread : Definition.read e.2 with
      | error fault => simp [hkey, hread] at h
      | ok d =>
          obtain rfl : d.records key = r := by simpa [hkey, hread] using h
          exact ⟨rfl, rfl⟩

/-- The records of the entries are those of the definitions in them. -/
theorem recordsOfEntries_eq_ok {entries : List (Value × Value)} {r : Records}
    (h : recordsOfEntries entries = .ok r) :
    r.setters = (entries.filterMap declaredAt).filterMap Declared.setter? ∧
      r.substitutions = (entries.filterMap declaredAt).filterMap Declared.substitution? := by
  simp only [List.filterMap_filterMap]
  induction entries generalizing r with
  | nil =>
      obtain rfl : ({} : Records) = r := by simpa [recordsOfEntries] using h
      exact ⟨rfl, rfl⟩
  | cons e rest ih =>
      rw [recordsOfEntries] at h
      cases hhere : recordsOfEntry e with
      | error reason => simp [hhere] at h
      | ok here =>
          cases hrest : recordsOfEntries rest with
          | error reason => simp [hhere, hrest, Except.map] at h
          | ok others =>
              obtain rfl : here ++ others = r := by simpa [hhere, hrest, Except.map] using h
              obtain ⟨hsetters, hsubstitutions⟩ := recordsOfEntry_eq_ok hhere
              obtain ⟨hsettersRest, hsubstitutionsRest⟩ := ih hrest
              constructor
              · show here.setters ++ others.setters = _
                rw [hsetters, hsettersRest]
                cases hd : (declaredAt e).bind Declared.setter? <;> simp [hd]
              · show here.substitutions ++ others.substitutions = _
                rw [hsubstitutions, hsubstitutionsRest]
                cases hd : (declaredAt e).bind Declared.substitution? <;> simp [hd]

/-- The records in a metadata file are those of its definitions, in their order. -/
theorem parse_eq_ok {path content : Text} {r : Records} (h : parse path content = .ok r) :
    r.setters = (declaredIn content).filterMap Declared.setter? ∧
      r.substitutions = (declaredIn content).filterMap Declared.substitution? := by
  unfold parse at h
  unfold declaredIn
  cases hread : Value.read content with
  | none => simp [hread] at h
  | some v =>
      have hvalue : ofValue v = .ok r := by
        cases hvalue : ofValue v with
        | error reason => simp [hread, hvalue] at h
        | ok s => simpa [hread, hvalue] using h
      show r.setters = (declaredOf v).filterMap _ ∧ r.substitutions = (declaredOf v).filterMap _
      unfold ofValue at hvalue
      unfold declaredOf
      split at hvalue
      · rename_i hnull
        have hnone : definitionsOf v = .ok [] := by
          simp [definitionsOf, Fields.read, mappingOf, hnull, Fields.readFrom, Except.map]
        rw [hnone]
        obtain rfl := Except.ok.inj hvalue
        exact ⟨rfl, rfl⟩
      · cases hentries : definitionsOf v with
        | error fault => simp [hentries] at hvalue
        | ok entries =>
            rw [hentries] at hvalue
            exact recordsOfEntries_eq_ok hvalue

/-! ## Keys that say the name -/

/-- The key is the marker of the kind followed by a name, and the name that is written down,
if any, is this one. -/
def SaysName (kind key : Text) (name : Option Value) : Prop :=
  kind <+: key ∧ ∀ x ∈ name, kind ++ textOf x = key

instance (kind key : Text) (name : Option Value) : Decidable (SaysName kind key name) := by
  unfold SaysName
  infer_instance

theorem SaysName.append_name {kind key : Text} {name : Option Value}
    (h : SaysName kind key name) :
    kind ++ (name.map textOf).getD (Reference.nameOfKey kind key) = key := by
  obtain ⟨⟨rest, rfl⟩, hwritten⟩ := h
  cases name with
  | none => simp [Reference.nameOfKey, Reference.isPrefixOf?_append]
  | some x => exact hwritten x rfl

/-- The definition has the name that its key says. -/
def Declared.IsKeyed (d : Declared) : Prop :=
  (∀ s ∈ d.asSetter?, SaysName Reference.setterKind d.key s.name) ∧
    ∀ t ∈ d.asSubstitution?, SaysName Reference.substitutionKind d.key t.name

instance (d : Declared) : Decidable d.IsKeyed := by
  unfold Declared.IsKeyed
  infer_instance

theorem Declared.pointer_of_setter? {d : Declared} (hkeyed : d.IsKeyed) {s : Setter}
    (hs : d.setter? = some s) : d.pointer = Reference.ofSetter s.name := by
  obtain ⟨x, hx, rfl⟩ := Option.map_eq_some_iff.1 hs
  unfold pointer Reference.ofSetter
  rw [List.append_assoc]
  congr 1
  exact (hkeyed.1 x hx).append_name.symm

theorem Declared.pointer_of_substitution? {d : Declared} (hkeyed : d.IsKeyed)
    {t : Substitution} (ht : d.substitution? = some t) :
    d.pointer = Reference.ofSubstitution t.name := by
  obtain ⟨x, hx, rfl⟩ := Option.map_eq_some_iff.1 ht
  unfold pointer Reference.ofSubstitution
  rw [List.append_assoc]
  congr 1
  exact (hkeyed.2 x hx).append_name.symm

/-! ## Paths -/

/-- One of the definitions is a substitution with a pointer at another one. -/
def PointsTo (ds : List Declared) (a b : Declared) : Prop :=
  a ∈ ds ∧ b ∈ ds ∧ ∃ t, a.substitution? = some t ∧ b.pointer ∈ t.references

/-- There is a path along pointers. -/
def Reaches (ds : List Declared) : Declared → Declared → Prop :=
  Relation.TransGen (PointsTo ds)

section Paths

variable {ds : List Declared} {d : Declared} {s : Setter}

/-- The definition of a substitution that uses a setter reaches that of the setter. -/
theorem Reaches.of_uses (hkeyed : ∀ a ∈ ds, a.IsKeyed) (hd : d ∈ ds) (hs : d.setter? = some s)
    {t : Substitution} (huses : Usage.Uses s.name (ds.filterMap Declared.substitution?) t) :
    ∃ a ∈ ds, a.substitution? = some t ∧ Reaches ds a d := by
  induction huses with
  | direct ht href =>
      obtain ⟨a, ha, hat⟩ := List.mem_filterMap.1 ht
      have hpointer := d.pointer_of_setter? (hkeyed d hd) hs
      refine ⟨a, ha, hat, ?_⟩
      apply Relation.TransGen.single
      exact ⟨ha, hd, _, hat, hpointer ▸ href⟩
  | through ht _ href ih =>
      obtain ⟨a, ha, hat⟩ := List.mem_filterMap.1 ht
      obtain ⟨b, hb, hbu, hreach⟩ := ih
      -- the reference names the substitution, and its key makes this a pointer at it
      have hpointer := b.pointer_of_substitution? (hkeyed b hb) hbu
      refine ⟨a, ha, hat, ?_⟩
      apply Relation.TransGen.head _ hreach
      exact ⟨ha, hb, _, hat, hpointer ▸ href⟩

/-- A definition that reaches that of a setter is that of a substitution that uses it. -/
theorem Reaches.uses (hkeyed : ∀ a ∈ ds, a.IsKeyed) (hs : d.setter? = some s) {a : Declared}
    (hreach : Reaches ds a d) :
    ∃ t, a.substitution? = some t ∧
      Usage.Uses s.name (ds.filterMap Declared.substitution?) t := by
  induction hreach using Relation.TransGen.head_induction_on with
  | single hedge =>
      obtain ⟨ha, hd, t, hat, href⟩ := hedge
      refine ⟨t, hat, .direct (List.mem_filterMap.2 ⟨_, ha, hat⟩) ?_⟩
      rwa [← d.pointer_of_setter? (hkeyed d hd) hs]
  | head hedge _ ih =>
      obtain ⟨ha, hb, t, hat, href⟩ := hedge
      obtain ⟨u, hbu, huses⟩ := ih
      refine ⟨t, hat, .through (List.mem_filterMap.2 ⟨_, ha, hat⟩) huses ?_⟩
      rwa [← Declared.pointer_of_substitution? (hkeyed _ hb) hbu]

/-- The names of the substitutions that use a setter are those of the definitions that reach
it. -/
theorem exists_uses_iff_reaches (hkeyed : ∀ a ∈ ds, a.IsKeyed) (hd : d ∈ ds)
    (hs : d.setter? = some s) {name : Text} :
    (∃ t, Usage.Uses s.name (ds.filterMap Declared.substitution?) t ∧ t.name = name) ↔
      ∃ a t, Reaches ds a d ∧ a.substitution? = some t ∧ t.name = name := by
  constructor
  · rintro ⟨t, huses, hname⟩
    obtain ⟨a, -, hat, hreach⟩ := Reaches.of_uses hkeyed hd hs huses
    exact ⟨a, t, hreach, hat, hname⟩
  · rintro ⟨a, t, hreach, hat, hname⟩
    obtain ⟨u, hau, huses⟩ := hreach.uses hkeyed hs
    obtain rfl : u = t := Option.some.inj (hau.symm.trans hat)
    exact ⟨u, huses, hname⟩

end Paths

/-! ## Counts -/

/-- In a metadata file whose keys say the names, the setters are those of the definitions.
Each counts the references to its own name and, once for each name, those to the names of the
substitutions from which there is a path along pointers to its definition.  A pointer at a
definition is displayed as the name of its record. -/
theorem parse_count_eq_sum {path content : Text} {r : Records}
    (hparse : parse path content = .ok r) (hkeyed : ∀ d ∈ declaredIn content, d.IsKeyed) :
    r.setters = (declaredIn content).filterMap Declared.setter? ∧
    (∀ d ∈ declaredIn content, ∀ s, d.setter? = some s →
      Reference.display d.pointer = s.name ∧
      ∃ users : Finset Text,
        (∀ name, name ∈ users ↔ ∃ a t,
          Reaches (declaredIn content) a d ∧ a.substitution? = some t ∧ t.name = name) ∧
        ∀ references : Text → Nat, Usage.count s.name references r.substitutions =
          references s.name + ∑ name ∈ users, references name) ∧
    ∀ d ∈ declaredIn content, ∀ t, d.substitution? = some t →
      Reference.display d.pointer = t.name := by
  obtain ⟨hsetters, hsubstitutions⟩ := parse_eq_ok hparse
  refine ⟨hsetters, ?_, ?_⟩
  · intro d hd s hs
    refine ⟨?_, (Usage.closure s.name r.substitutions).dependents.toFinset, ?_, ?_⟩
    · rw [d.pointer_of_setter? (hkeyed d hd) hs]
      exact Reference.display_ofSetter s.name
    · intro name
      rw [List.mem_toFinset, Usage.mem_dependents_closure, hsubstitutions]
      exact exists_uses_iff_reaches hkeyed hd hs
    · intro references
      exact count_eq_add_sum s.name references r.substitutions
  · intro d hd t ht
    rw [d.pointer_of_substitution? (hkeyed d hd) ht]
    exact Reference.display_ofSubstitution t.name

/-! ## A chain of substitutions -/

/-- A setter, a substitution that points at it, and one that points at this.  The last has
its name written down. -/
def chainFile : Text :=
  "openAPI:\n".toList ++
  "  definitions:\n".toList ++
  "    io.k8s.cli.setters.tag:\n".toList ++
  "      x-k8s-cli:\n".toList ++
  "        setter:\n".toList ++
  "          value: v1\n".toList ++
  "    io.k8s.cli.substitutions.image:\n".toList ++
  "      x-k8s-cli:\n".toList ++
  "        substitution:\n".toList ++
  "          values:\n".toList ++
  "          - ref: '#/definitions/io.k8s.cli.setters.tag'\n".toList ++
  "    io.k8s.cli.substitutions.command:\n".toList ++
  "      x-k8s-cli:\n".toList ++
  "        substitution:\n".toList ++
  "          name: command\n".toList ++
  "          values:\n".toList ++
  "          - ref: '#/definitions/io.k8s.cli.substitutions.image'\n".toList

/-- What the file declares. -/
def chainRecords : Records where
  setters := [{ name := "tag".toList, value := "v1".toList }]
  substitutions :=
    [{ name := "image".toList, references := [Reference.ofSetter "tag".toList] },
      { name := "command".toList, references := [Reference.ofSubstitution "image".toList] }]

/-- The general statement at the chain. -/
theorem parse_count_eq_sum_chain :
    parse "Krmfile".toList chainFile = .ok chainRecords ∧
    (∀ d ∈ declaredIn chainFile, d.IsKeyed) ∧
    chainRecords.setters = (declaredIn chainFile).filterMap Declared.setter? ∧
    (∀ d ∈ declaredIn chainFile, ∀ s, d.setter? = some s →
      Reference.display d.pointer = s.name ∧
      ∃ users : Finset Text,
        (∀ name, name ∈ users ↔ ∃ a t,
          Reaches (declaredIn chainFile) a d ∧ a.substitution? = some t ∧ t.name = name) ∧
        ∀ references : Text → Nat, Usage.count s.name references chainRecords.substitutions =
          references s.name + ∑ name ∈ users, references name) ∧
    ∀ d ∈ declaredIn chainFile, ∀ t, d.substitution? = some t →
      Reference.display d.pointer = t.name := by
  have hparse : parse "Krmfile".toList chainFile = .ok chainRecords := by decide +kernel
  have hkeyed : ∀ d ∈ declaredIn chainFile, d.IsKeyed := by decide +kernel
  exact ⟨hparse, hkeyed, parse_count_eq_sum hparse hkeyed⟩

end SetterReport.Metadata
