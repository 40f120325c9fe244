import SetterReport.Proofs.DefinitionSplit

/-!
# Places in a document

A place in a value is a list of steps: to what stands under a key, to an entry of a mapping or
to an item of a sequence.  `put` replaces what stands at a place.  Tags on the way are passed
over, as they are when a document is read, and stay where they are.

A replacement changes one field at each level.  A mapping with one known field changed is read
as before, up to an update of the record (`read_change`): the fields before the changed one
have not seen it, and those after it set other parts of the record.  So a replacement at a
place is followed from one level to the next (`read_put_field`).

## Main results

* `at?_put` — after a replacement the new value stands at the place.
* `read_put_field` — a replacement inside a field is an update of the record that is read.
-/

namespace SetterReport.Metadata

open Yaml

/-! ## Places -/

/-- A step into a value. -/
inductive Step
  /-- To what stands under a string key. -/
  | field (name : Text)
  /-- To the value of an entry of a mapping, by its position. -/
  | entry (i : Nat)
  /-- To an item of a sequence, by its position. -/
  | item (i : Nat)

namespace Step

/-- What a step leads to, tags ignored. -/
def at? (v : Value) : Step → Option Value
  | field name => fieldOf? name v
  | entry i => (entriesOf v)[i]?.map (·.2)
  | item i => (itemsOf v)[i]?

/-- The entries of a mapping with a change of what the step leads to. -/
def changeEntries (g : Value → Value) (entries : List (Value × Value)) :
    Step → List (Value × Value)
  | field name => entries.map fun e => if stringOf? e.1 = some name then (e.1, g e.2) else e
  | entry i => entries.modify i fun e => (e.1, g e.2)
  | item _ => entries

/-- The items of a sequence with a change of what the step leads to. -/
def changeItems (g : Value → Value) (items : List Value) : Step → List Value
  | item i => items.modify i g
  | _ => items

/-- The value with a change of what the step leads to; tags stay. -/
def change (step : Step) (g : Value → Value) : Value → Value
  | .tagged tag v => .tagged tag (change step g v)
  | .mapping entries => .mapping (step.changeEntries g entries)
  | .sequence items => .sequence (step.changeItems g items)
  | v => v

end Step

/-- What stands at a place. -/
def at? (v : Value) : List Step → Option Value
  | [] => some v
  | step :: rest => (step.at? v).bind fun inner => at? inner rest

/-- The value with another one in a place. -/
def put (x : Value) : List Step → Value → Value
  | [], _ => x
  | step :: rest, v => step.change (put x rest) v

/-- A place is reached by its first step and the other ones from there. -/
theorem at?_cons {step : Step} {rest : List Step} {v : Value}
    (h : (at? v (step :: rest)).isSome = true) :
    ∃ y, step.at? v = some y ∧ (at? y rest).isSome = true := by
  obtain ⟨x, hx⟩ := Option.isSome_iff_exists.1 h
  obtain ⟨y, hy, hrest⟩ := Option.bind_eq_some_iff.1 hx
  exact ⟨y, hy, by rw [hrest]; rfl⟩

section Change

variable {step : Step} {g : Value → Value} {v : Value}

@[simp]
theorem untagged_change (step : Step) (g : Value → Value) (v : Value) :
    (step.change g v).untagged = step.change g v.untagged := by
  induction v using Value.untagged.induct with
  | case1 tag v ih => simpa [Step.change, Value.untagged] using ih
  | case2 v hv => cases v <;> first | rfl | exact absurd rfl (hv _ _)

theorem entriesOf_change (step : Step) (g : Value → Value) (v : Value) :
    entriesOf (step.change g v) = step.changeEntries g (entriesOf v) := by
  unfold entriesOf
  rw [untagged_change]
  cases v.untagged <;> cases step <;> simp [Step.change, Step.changeEntries]

theorem itemsOf_change (step : Step) (g : Value → Value) (v : Value) :
    itemsOf (step.change g v) = step.changeItems g (itemsOf v) := by
  unfold itemsOf
  rw [untagged_change]
  cases v.untagged <;> cases step <;> simp [Step.change, Step.changeItems]

theorem isMapping_change (step : Step) (g : Value → Value) :
    IsMapping (step.change g v) ↔ IsMapping v := by
  unfold IsMapping
  rw [untagged_change]
  cases v.untagged <;> simp [Step.change]

theorem isSequence_change (step : Step) (g : Value → Value) :
    IsSequence (step.change g v) ↔ IsSequence v := by
  unfold IsSequence
  rw [untagged_change]
  cases v.untagged <;> simp [Step.change]

/-- What a step leads to after a change is what was there, changed. -/
theorem at?_change (step : Step) (g : Value → Value) (v : Value) :
    step.at? (step.change g v) = (step.at? v).map g := by
  cases step with
  | field name =>
      have hkey : (fun e : Value × Value => stringOf? e.1 == some name) ∘
          (fun e => if stringOf? e.1 = some name then (e.1, g e.2) else e) =
          fun e => stringOf? e.1 == some name := by
        funext e
        by_cases hname : stringOf? e.1 = some name <;> simp [hname]
      simp only [Step.at?, fieldOf?, entriesOf_change, Step.changeEntries, List.find?_map, hkey]
      cases hfound : (entriesOf v).find? fun e => stringOf? e.1 == some name with
      | none => rfl
      | some e =>
          have hname : stringOf? e.1 = some name := by simpa using List.find?_some hfound
          simp [hname]
  | entry i =>
      simp only [Step.at?, entriesOf_change, Step.changeEntries, List.getElem?_modify_eq]
      cases (entriesOf v)[i]? <;> rfl
  | item i => simp [Step.at?, itemsOf_change, Step.changeItems]

/-- A replacement puts the new value in its place. -/
theorem at?_put (x : Value) {steps : List Step} {v : Value}
    (h : (at? v steps).isSome = true) : at? (put x steps v) steps = some x := by
  induction steps generalizing v with
  | nil => rfl
  | cons step rest ih =>
      obtain ⟨y, hy, hrest⟩ := at?_cons h
      have hput : step.at? (put x (step :: rest) v) = some (put x rest y) := by
        rw [put, at?_change, hy]
        rfl
      rw [at?, hput]
      exact ih hrest

/-- A value that a step leads into is not null, and neither is it after a change. -/
theorem ne_null_of_at? (h : (step.at? v).isSome = true) (g : Value → Value) :
    v ≠ .null ∧ step.change g v ≠ .null := by
  have hnull : v ≠ .null := by
    rintro rfl
    cases step <;> simp [Step.at?, fieldOf?, entriesOf, itemsOf, Value.untagged] at h
  refine ⟨hnull, ?_⟩
  cases v with
  | null => exact absurd rfl hnull
  | _ => simp [Step.change]

end Change

/-! ## Reading after a change -/

section ReadChange

variable {α : Type} {f : Fields α} {name : Text} {g : Value → Value} {u : α → α}

theorem changeEntries_cons_self {e : Value × Value} (hkey : stringOf? e.1 = some name)
    (rest : List (Value × Value)) :
    (Step.field name).changeEntries g (e :: rest) =
      (e.1, g e.2) :: (Step.field name).changeEntries g rest := by
  simp [Step.changeEntries, hkey]

theorem changeEntries_cons_ne {e : Value × Value} {key : Text} (hkey : stringOf? e.1 = some key)
    (hne : key ≠ name) (rest : List (Value × Value)) :
    (Step.field name).changeEntries g (e :: rest) =
      e :: (Step.field name).changeEntries g rest := by
  simp [Step.changeEntries, hkey, hne]

/-- After the changed field, the others are read into the updated record as they were. -/
theorem readFrom_change_of_mem
    (hother : ∀ n ∈ f.names, n ≠ name → ∀ r z, f.take (u r) n z = (f.take r n z).map u)
    (hname : name ∈ f.names) {entries : List (Value × Value)} {seen : List Text} {record r : α}
    (hseen : name ∈ seen) (h : f.readFrom seen record entries = .ok r) :
    f.readFrom seen (u record) ((Step.field name).changeEntries g entries) = .ok (u r) := by
  induction entries generalizing seen record with
  | nil =>
      obtain rfl : record = r := by simpa [Fields.readFrom] using h
      rfl
  | cons e rest ih =>
      obtain ⟨key, hkey, hcase⟩ := readFrom_cons_eq_ok_iff.1 h
      -- a known field that has been there does not come again
      have hne : key ≠ name := by
        rintro rfl
        rcases hcase with ⟨hunknown, -⟩ | ⟨-, hnew, -⟩
        · exact hunknown hname
        · exact hnew hseen
      rw [changeEntries_cons_ne hkey hne, readFrom_cons_eq_ok_iff]
      refine ⟨key, hkey, ?_⟩
      rcases hcase with ⟨hunknown, hrest⟩ | ⟨hknown, hnew, next, htaken, hrest⟩
      · exact Or.inl ⟨hunknown, ih hseen hrest⟩
      · exact Or.inr ⟨hknown, hnew, u next, by rw [hother key hknown hne, htaken]; rfl,
          ih (List.mem_cons_of_mem _ hseen) hrest⟩

/-- Up to the changed field nothing is new; taking its value makes the update. -/
theorem readFrom_change {y : Value}
    (hchanged : ∀ r s, f.take r name y = .ok s → f.take r name (g y) = .ok (u s))
    (hother : ∀ n ∈ f.names, n ≠ name → ∀ r z, f.take (u r) n z = (f.take r n z).map u)
    (hname : name ∈ f.names) {entries : List (Value × Value)} {seen : List Text} {record r : α}
    (hfound : (entries.find? fun e => stringOf? e.1 == some name).map (·.2) = some y)
    (h : f.readFrom seen record entries = .ok r) :
    f.readFrom seen record ((Step.field name).changeEntries g entries) = .ok (u r) := by
  induction entries generalizing seen record with
  | nil => simp at hfound
  | cons e rest ih =>
      obtain ⟨key, hkey, hcase⟩ := readFrom_cons_eq_ok_iff.1 h
      by_cases hne : key = name
      · subst hne
        obtain rfl : e.2 = y := by simpa [hkey] using hfound
        rw [changeEntries_cons_self hkey, readFrom_cons_eq_ok_iff]
        rcases hcase with ⟨hunknown, -⟩ | ⟨-, hnew, next, htaken, hrest⟩
        · exact absurd hname hunknown
        · exact ⟨key, hkey, Or.inr ⟨hname, hnew, u next, hchanged _ _ htaken,
            readFrom_change_of_mem hother hname List.mem_cons_self hrest⟩⟩
      · have hlater : (rest.find? fun e => stringOf? e.1 == some name).map (·.2) = some y := by
          simpa [hkey, hne] using hfound
        rw [changeEntries_cons_ne hkey hne, readFrom_cons_eq_ok_iff]
        refine ⟨key, hkey, ?_⟩
        rcases hcase with ⟨hunknown, hrest⟩ | ⟨hknown, hnew, next, htaken, hrest⟩
        · exact Or.inl ⟨hunknown, ih hlater hrest⟩
        · exact Or.inr ⟨hknown, hnew, next, htaken, ih hlater hrest⟩

/-- A mapping with one known field changed is read as before, with an update of the record:
the one that taking the changed value makes, if the other fields do not see it. -/
theorem read_change {start r : α} {v y : Value} (hname : name ∈ f.names)
    (hfound : fieldOf? name v = some y)
    (hchanged : ∀ r s, f.take r name y = .ok s → f.take r name (g y) = .ok (u s))
    (hother : ∀ n ∈ f.names, n ≠ name → ∀ r z, f.take (u r) n z = (f.take r n z).map u)
    (h : f.read start v = .ok r) :
    f.read start ((Step.field name).change g v) = .ok (u r) := by
  unfold Fields.read at h ⊢
  cases hentries : mappingOf f.title v with
  | error fault => simp [hentries] at h
  | ok entries =>
      rw [hentries] at h
      obtain ⟨hmapping, rfl⟩ := mappingOf_eq_ok_iff.1 hentries
      have hafter : mappingOf f.title ((Step.field name).change g v) =
          .ok ((Step.field name).changeEntries g (entriesOf v)) :=
        mappingOf_eq_ok_iff.2 ⟨(isMapping_change _ _).2 hmapping, entriesOf_change _ _ _⟩
      rw [hafter]
      exact readFrom_change hchanged hother hname hfound h

/-- The same for a replacement.  The field is read by its shape and put into the record, and
what the shape gives for the new value is an update of what it gave for the old one. -/
theorem read_put_field {β : Type} {shape : Value → Shaped β} {a : α → β → α} {w : β → β}
    {inner : List Step} {x v : Value} (hpresent : (at? v (.field name :: inner)).isSome = true)
    (hname : name ∈ f.names) (htake : ∀ r z, f.take r name z = (shape z).map (a r))
    (hupdate : ∀ r found, u (a r found) = a r (w found))
    (hother : ∀ n ∈ f.names, n ≠ name → ∀ r z, f.take (u r) n z = (f.take r n z).map u)
    (hshape : ∀ y found, (at? y inner).isSome = true → shape y = .ok found →
      shape (put x inner y) = .ok (w found))
    {start r : α} (h : f.read start v = .ok r) :
    f.read start (put x (.field name :: inner) v) = .ok (u r) := by
  obtain ⟨y, hy, hrest⟩ := at?_cons hpresent
  refine read_change hname hy ?_ hother h
  intro r s htaken
  rw [htake] at htaken ⊢
  obtain ⟨found, hfound⟩ := exists_map_iff.1 ⟨s, htaken⟩
  rw [hfound] at htaken
  obtain rfl := Except.ok.inj htaken
  rw [hshape y found hrest hfound, hupdate]
  rfl

end ReadChange

/-! ## Shapes after a replacement -/

/-- What a field that may be left out has as its value. -/
def present? : Value → Option Value
  | .null => none
  | v => some v

theorem anyOptional_eq (v : Value) : anyOptional v = .ok (present? v) := by
  cases v <;> rfl

@[simp]
theorem optionalText_present? (v : Value) : optionalText (present? v) = textOf v := by
  cases v <;> rfl

/-- A replacement inside a field that may be left out, which is there then. -/
theorem optional_put {α : Type} {shape : Value → Shaped α} {w : α → α} {x v : Value}
    {steps : List Step} (hsteps : steps ≠ []) (hpresent : (at? v steps).isSome = true)
    (hshape : ∀ d, shape v = .ok d → shape (put x steps v) = .ok (w d)) {found : Option α}
    (h : optional shape v = .ok found) :
    optional shape (put x steps v) = .ok (found.map w) := by
  obtain ⟨step, rest, rfl⟩ := List.exists_cons_of_ne_nil hsteps
  obtain ⟨y, hy, -⟩ := at?_cons hpresent
  obtain ⟨hnull, hnullAfter⟩ := ne_null_of_at? (by rw [hy]; rfl) (put x rest)
  obtain ⟨rfl, -⟩ | ⟨d, hd, rfl⟩ := optional_eq_ok h
  · exact absurd rfl hnull
  · have hafter := hshape d hd
    rw [optional]
    · rw [hafter]
      rfl
    · exact hnullAfter

theorem sequenceOf_put {x v : Value} {i : Nat} {inner : List Step} {items : List Value}
    (h : sequenceOf v = .ok items) :
    sequenceOf (put x (.item i :: inner) v) = .ok (items.modify i (put x inner)) := by
  obtain ⟨hsequence, rfl⟩ := sequenceOf_eq_ok_iff.1 h
  exact sequenceOf_eq_ok_iff.2 ⟨(isSequence_change _ _).2 hsequence, itemsOf_change _ _ _⟩

theorem mappingOf_put {expected : Text} {x v : Value} {i : Nat} {inner : List Step}
    {entries : List (Value × Value)} (h : mappingOf expected v = .ok entries) :
    mappingOf expected (put x (.entry i :: inner) v) =
      .ok (entries.modify i fun e => (e.1, put x inner e.2)) := by
  obtain ⟨hmapping, rfl⟩ := mappingOf_eq_ok_iff.1 h
  exact mappingOf_eq_ok_iff.2 ⟨(isMapping_change _ _).2 hmapping, entriesOf_change _ _ _⟩

end SetterReport.Metadata
