import SetterReport.Extraction
import SetterReport.Marker
import SetterReport.Package
import SetterReport.Proofs.PathJoin
import SetterReport.Proofs.Trimming

/-!
# Marker names and paths

A marker name goes through a path: it is joined to the directory of a package, and the name and
the directory are recovered from the metadata path when the records are extracted.  What comes
back is what was put in, however the directory is spelled, if the name is a bare one; and the
names that pass the check are the bare ones without a backslash (`check_eq_ok_iff`).

A name that passes is trimmed, so that it passes again and stays as it is.

## Main result

* `isKept_metadataPath` — a resolved name is resolved to itself, and the metadata path of every
  directory gives back the name and the directory.
-/

namespace SetterReport.Marker

open SetterReport.Path (IsBare)

/-- A bare name is not empty, is neither `.` nor `..`, and has no slash in it. -/
theorem isBare_iff {name : Text} :
    IsBare name ↔ name ≠ [] ∧ name ≠ ['.'] ∧ name ≠ ['.', '.'] ∧ '/' ∉ name := by
  unfold IsBare Path.component? Path.isIdle
  by_cases hempty : name = []
  · simp [hempty]
  · by_cases hhere : name = ['.']
    · simp [hhere]
    · by_cases hup : name = ['.', '.']
      · simp [hup]
      · simp [hempty, hhere, hup]

/-- What passes the check is a bare name without a backslash, and stays as it is. -/
theorem check_eq_ok_iff {name n : Text} :
    check name = .ok n ↔ n = name ∧ IsBare name ∧ '\\' ∉ name := by
  rw [isBare_iff]
  unfold check
  split_ifs with hempty hseparator hdots
  · simp [List.isEmpty_iff.1 hempty]
  · have hsome : '/' ∈ name ∨ '\\' ∈ name := by simpa using hseparator
    rcases hsome with hslash | hback
    · simp [hslash]
    · simp [hback]
  · have hsome : name = ['.'] ∨ name = ['.', '.'] := by simpa using hdots
    rcases hsome with rfl | rfl <;> simp
  · have hname : name ≠ [] := by simpa using hempty
    have hseparators : '/' ∉ name ∧ '\\' ∉ name := by simpa using hseparator
    have hsteps : name ≠ ['.'] ∧ name ≠ ['.', '.'] := by simpa using hdots
    rw [Except.ok.injEq, eq_comm]
    exact (and_iff_left ⟨⟨hname, hsteps.1, hsteps.2, hseparators.1⟩, hseparators.2⟩).symm

/-- A name is resolved to its trimmed form, if that passes the check. -/
theorem resolve_some_eq_ok_iff {configured name : Text} :
    resolve (some configured) = .ok name ↔ check (Text.trim configured) = .ok name := by
  cases hcheck : check (Text.trim configured) <;> simp [resolve, hcheck]

/-- A resolved name is bare. -/
theorem isBare_of_resolve {configured name : Text} (h : resolve (some configured) = .ok name) :
    IsBare name := by
  obtain ⟨rfl, hbare, -⟩ := check_eq_ok_iff.1 (resolve_some_eq_ok_iff.1 h)
  exact hbare

/-- A resolved name is resolved to itself. -/
theorem resolve_of_resolve {configured name : Text} (h : resolve (some configured) = .ok name) :
    resolve (some name) = .ok name := by
  have hcheck := resolve_some_eq_ok_iff.1 h
  obtain ⟨hname, -⟩ := check_eq_ok_iff.1 hcheck
  have htrim : Text.trim name = Text.trim configured := by
    rw [hname]
    exact Text.trim_trim configured
  exact resolve_some_eq_ok_iff.2 (htrim ▸ hcheck)

/-- A path gives back the directory and the name that it was joined from. -/
structure IsKept (directory : Path) (name : Text) (path : Path) : Prop where
  fileName : path.fileName? = some name
  parent : ∃ d, path.parent? = some d ∧ d.components = directory.components
  /-- The name and the directory by which fields are counted. -/
  markerOf : Extraction.markerOf path = name
  directoryOf : (Extraction.directoryOf path).components = directory.components

theorem isKept_join (directory : Path) {name : Text} (h : IsBare name) :
    IsKept directory name (directory.join name) := by
  have hname := Path.fileName?_join directory h
  obtain ⟨d, hparent, -, hcomponents⟩ := Path.exists_parent_join directory h
  refine ⟨hname, ⟨d, hparent, hcomponents⟩, ?_, ?_⟩
  · simp [Extraction.markerOf, hname]
  · simpa [Extraction.directoryOf, hparent] using hcomponents

/-- A resolved marker name is resolved to itself.  Joined to a directory, in whatever spelling,
it is the file name of the metadata path, and the parent of that path is the directory; so
extraction counts in the directory of the package and by the name that was configured. -/
theorem isKept_metadataPath {configured name : Text}
    (h : resolve (some configured) = .ok name) :
    resolve (some name) = .ok name ∧
      ∀ directory : Path, IsKept directory name (Package.metadataPath directory name) :=
  ⟨resolve_of_resolve h, fun directory => isKept_join directory (isBare_of_resolve h)⟩

/-- Three dots are a name, although one or two are not. -/
theorem isKept_metadataPath_dots :
    resolve (some " ...\t".toList) = .ok "...".toList ∧
      resolve (some "...".toList) = .ok "...".toList ∧
      IsKept ⟨"./..//a/.".toList⟩ "...".toList
        (Package.metadataPath ⟨"./..//a/.".toList⟩ "...".toList) := by
  have h : resolve (some " ...\t".toList) = .ok "...".toList := rfl
  obtain ⟨hagain, hkept⟩ := isKept_metadataPath h
  exact ⟨h, hagain, hkept _⟩

end SetterReport.Marker
