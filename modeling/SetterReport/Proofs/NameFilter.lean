import SetterReport.Proofs.SetterCount

/-!
# Asking for one name

A name narrows down what is extracted, and nothing else.  The setters that are kept are
counted against all the substitutions that the file declares, also those that have another
name and are themselves left out; and where no setter is kept, nothing is counted and there
is nothing to count.  So a record that is kept is the record that is extracted without a
name, its count included.

## Main result

* `records_extract_some` — extracting for a name gives the records of this name out of those
  that are extracted without one.
-/

namespace SetterReport.Extraction

/-- Counting leaves the name, so it does not matter whether the records of a name are
counted or the counted records of a name are taken. -/
theorem filter_map_withCount (references : Text → Nat) (substitutions : List Substitution)
    (n : Text) (setters : List Setter) :
    (setters.map (withCount references substitutions)).filter (fun s => s.name = n) =
      (setters.filter fun s => s.name = n).map (withCount references substitutions) := by
  rw [List.filter_map]
  rfl

/-- What is extracted of the declared records for a name. -/
theorem records_extractFrom_some (tree : FileTree) (declared : Records) (path : Path)
    (n : Text) :
    (extractFrom tree declared path (some n)).records =
      ⟨(extractFrom tree declared path none).records.setters.filter fun s => s.name = n,
        (extractFrom tree declared path none).records.substitutions.filter
          fun s => s.name = n⟩ := by
  have hnamed : declared.named (some n) =
      ⟨declared.setters.filter fun s => s.name = n,
        declared.substitutions.filter fun s => s.name = n⟩ := by
    simp only [Records.named, beq_eq_decide]
  rw [records_extractFrom, records_extractFrom, hnamed]
  simp only [Records.named, filter_map_withCount]

/-- Extracting for a name fails as extracting without one fails.  Otherwise its setters and
its substitutions are those of this name among all that are extracted, in the same order and
with the same counts.  The same holds whatever records the file is known to declare. -/
theorem records_extract_some (tree : FileTree) (path : Path) (n : Text) :
    ((extract tree path (some n)).map fun kept => kept.records) =
        ((extract tree path none).map fun all =>
          ⟨all.records.setters.filter fun s => s.name = n,
            all.records.substitutions.filter fun s => s.name = n⟩) ∧
      ∀ declared : Records, (extractFrom tree declared path (some n)).records =
        ⟨(extractFrom tree declared path none).records.setters.filter fun s => s.name = n,
          (extractFrom tree declared path none).records.substitutions.filter
            fun s => s.name = n⟩ := by
  constructor
  · unfold extract
    cases Metadata.readFile tree path with
    | error failure => rfl
    | ok declared =>
        show Except.ok (extractFrom tree declared path (some n)).records = Except.ok _
        rw [records_extractFrom_some]
  · intro declared
    exact records_extractFrom_some tree declared path n

end SetterReport.Extraction
