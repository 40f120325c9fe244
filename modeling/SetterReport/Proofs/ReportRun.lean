import SetterReport.Proofs.PackageIsolation

/-!
# What a report writes

A report goes through the packages in path order and ends at the first one whose
records cannot be extracted.  So what it writes is told package by package: the
blocks of the packages before the one that fails, and then the line that names
it.  Nothing after that package matters, neither for the text nor for the failure.

A block starts with the line that names its package, the directory closed by a slash
(`headerLine_eq`), and goes on with its tables.  The step is one package (`blocks_cons`,
`blocks_cons_error`).  From it a report over packages that all succeed is the report over
the rest behind their blocks (`blocks_append`), whatever the rest is.

## Main result

* `run_eq_blocks` — the text and the outcome of every report.
-/

namespace SetterReport.Report

/-- The records of a package, or why there are none. -/
def packageRecords (tree : FileTree) (o : Options) (directory : Path) : Except Failure Records :=
  recordsOf (Extraction.extract tree (directory.join o.marker) o.name)

/-- The text that shows a package with these records: a line with the directory, the table of
the setters, and on request the table of the substitutions. -/
def blockText (o : Options) (directory : Path) (r : Records) : Text :=
  directory.asDirectory ++ ['\n'] ++ Setter.table o.format r.setters ++
    if o.includeSubstitutions then Substitution.table o.format r.substitutions else []

/-- The texts of several packages, one after the other. -/
def blockTexts (o : Options) (packages : List Path) (found : List Records) : Text :=
  (List.zipWith (blockText o) packages found).flatten

/-- The number of setters in several packages. -/
def setterCount (found : List Records) : Nat :=
  (found.map fun r => r.setters.length).sum

/-! ## One package -/

/-- A package is named by its directory, on a line of its own. -/
theorem headerLine_eq (directory : Path) :
    headerLine directory = directory.asDirectory ++ ['\n'] :=
  rfl

section Step

variable {tree : FileTree} {o : Options} {directory : Path}

theorem block_of_ok {r : Records} (h : packageRecords tree o directory = .ok r) :
    ∃ log, block tree o directory = (blockText o directory r, .ok ⟨r, log⟩) := by
  unfold packageRecords recordsOf at h
  cases hextract : Extraction.extract tree (directory.join o.marker) o.name with
  | error failure => simp [hextract, Except.map] at h
  | ok e =>
      obtain ⟨records, log⟩ := e
      obtain rfl : records = r := by simpa [hextract, Except.map] using h
      refine ⟨log, ?_⟩
      unfold block Package.metadataPath
      simp only [hextract, headerLine_eq, blockText, tables, List.append_assoc]

theorem block_of_error {failure : Failure}
    (h : packageRecords tree o directory = .error failure) :
    block tree o directory = (directory.asDirectory ++ ['\n'], .error failure) := by
  unfold packageRecords recordsOf at h
  cases hextract : Extraction.extract tree (directory.join o.marker) o.name with
  | ok e => simp [hextract, Except.map] at h
  | error other =>
      obtain rfl : other = failure := by simpa [hextract, Except.map] using h
      unfold block Package.metadataPath
      simp only [hextract, headerLine_eq]

/-- A package that has records puts its block in front. -/
theorem blocks_cons {r : Records} (h : packageRecords tree o directory = .ok r)
    (packages total : Nat) (rest : List Path) :
    let later := blocks tree o packages (total + r.setters.length) rest
    (blocks tree o packages total (directory :: rest)).written =
        blockText o directory r ++ later.written ∧
      (blocks tree o packages total (directory :: rest)).outcome = later.outcome := by
  obtain ⟨log, hblock⟩ := block_of_ok h
  simp only [blocks, hblock, and_self]

/-- A package that fails ends the report with its name. -/
theorem blocks_cons_error {failure : Failure}
    (h : packageRecords tree o directory = .error failure) (packages total : Nat)
    (rest : List Path) :
    (blocks tree o packages total (directory :: rest)).written =
        directory.asDirectory ++ ['\n'] ∧
      (blocks tree o packages total (directory :: rest)).outcome = .error failure := by
  simp only [blocks, block_of_error h, and_self]

end Step

/-! ## Many packages -/

/-- The blocks of packages that have records come in front of all that follows. -/
theorem blocks_append {tree : FileTree} {o : Options} {before : List Path}
    {found : List Records} (h : before.map (packageRecords tree o) = found.map .ok)
    (packages total : Nat) (rest : List Path) :
    let later := blocks tree o packages (total + setterCount found) rest
    (blocks tree o packages total (before ++ rest)).written =
        blockTexts o before found ++ later.written ∧
      (blocks tree o packages total (before ++ rest)).outcome = later.outcome := by
  induction before generalizing found total with
  | nil =>
      obtain rfl : found = [] := by simpa using h.symm
      simp [blockTexts, setterCount]
  | cons directory before ih =>
      cases found with
      | nil => simp at h
      | cons r found =>
          obtain ⟨hhere, hrest⟩ := List.cons.inj h
          obtain ⟨hwritten, houtcome⟩ := blocks_cons hhere packages total (before ++ rest)
          obtain ⟨hlater, hlaterOutcome⟩ := ih hrest (total + r.setters.length)
          have hcount : total + r.setters.length + setterCount found =
              total + setterCount (r :: found) := by
            simp only [setterCount, List.map_cons, List.sum_cons]
            omega
          rw [hcount] at hlater hlaterOutcome
          constructor
          · rw [List.cons_append, hwritten, hlater]
            simp [blockTexts]
          · rw [List.cons_append, houtcome, hlaterOutcome]

/-- Either all members of a list succeed, or there is a first one that fails. -/
theorem exists_first_error {α ε β : Type} (f : α → Except ε β) (xs : List α) :
    (∃ ys : List β, xs.map f = ys.map .ok) ∨
      ∃ before x after, ∃ ys : List β, ∃ e, xs = before ++ x :: after ∧
        before.map f = ys.map .ok ∧ f x = .error e := by
  induction xs with
  | nil => exact Or.inl ⟨[], rfl⟩
  | cons x xs ih =>
      cases hx : f x with
      | error e => exact Or.inr ⟨[], x, xs, [], e, rfl, rfl, hx⟩
      | ok y =>
          rcases ih with ⟨ys, hys⟩ | ⟨before, z, after, ys, e, rfl, hys, hz⟩
          · exact Or.inl ⟨y :: ys, by simp [hx, hys]⟩
          · exact Or.inr ⟨x :: before, z, after, y :: ys, e, rfl, by simp [hx, hys], hz⟩

/-- A report up to its first failing package. -/
theorem run_of_first_error {tree : FileTree} {o : Options} {root : Path}
    {before after : List Path} {d : Path} {found : List Records} {failure : Failure}
    (hpackages : Package.directories tree root o.marker = .ok (before ++ d :: after))
    (hbefore : before.map (packageRecords tree o) = found.map .ok)
    (hd : packageRecords tree o d = .error failure) :
    (run tree o root).written = blockTexts o before found ++ (d.asDirectory ++ ['\n']) ∧
      (run tree o root).outcome = .error failure := by
  unfold run
  simp only [hpackages]
  obtain ⟨hwritten, houtcome⟩ :=
    blocks_append hbefore (before ++ d :: after).length 0 (d :: after)
  obtain ⟨hlast, hfailure⟩ :=
    blocks_cons_error hd (before ++ d :: after).length (0 + setterCount found) after
  exact ⟨hwritten.trans (by rw [hlast]), houtcome.trans hfailure⟩

/-- What a report writes and how it comes out.  If the packages cannot be found,
nothing is written.  If all packages have records, their blocks are written, and
the outcome is the number of setters in them.  Otherwise there is a first package
without records: the blocks before it are written, then the line that names it, and
its failure is the outcome.  The packages after it have no part in this: any report
that finds the same packages with the same records up to this one, in another
tree perhaps and from another root, writes the same and fails alike. -/
theorem run_eq_blocks (tree : FileTree) (o : Options) (root : Path) :
    let report := run tree o root
    match Package.directories tree root o.marker with
    | .error failure => report.written = [] ∧ report.outcome = .error failure
    | .ok packages =>
      (∃ found, packages.map (packageRecords tree o) = found.map .ok ∧
        report.written = blockTexts o packages found ∧
        report.outcome = .ok (.ofCount (setterCount found))) ∨
      ∃ before d after found failure, packages = before ++ d :: after ∧
        before.map (packageRecords tree o) = found.map .ok ∧
        packageRecords tree o d = .error failure ∧
        report.written = blockTexts o before found ++ (d.asDirectory ++ ['\n']) ∧
        report.outcome = .error failure ∧
        ∀ tree' root' after',
          Package.directories tree' root' o.marker = .ok (before ++ d :: after') →
          (∀ p ∈ before ++ [d], packageRecords tree' o p = packageRecords tree o p) →
          (run tree' o root').written = report.written ∧
            (run tree' o root').outcome = report.outcome := by
  intro report
  split
  · rename_i failure hpackages
    simp only [report, run, hpackages, and_self]
  · rename_i packages hpackages
    rcases exists_first_error (packageRecords tree o) packages with
      ⟨found, hfound⟩ | ⟨before, d, after, found, failure, rfl, hbefore, hd⟩
    · left
      obtain ⟨hwritten, houtcome⟩ := blocks_append hfound packages.length 0 []
      rw [List.append_nil] at hwritten houtcome
      refine ⟨found, hfound, ?_, ?_⟩
      · simp only [report, run, hpackages, hwritten, blocks, List.append_nil]
      · simp only [report, run, hpackages, houtcome, blocks, Nat.zero_add]
    · right
      obtain ⟨hwritten, houtcome⟩ := run_of_first_error hpackages hbefore hd
      refine ⟨before, d, after, found, failure, rfl, hbefore, hd, hwritten, houtcome, ?_⟩
      intro tree' root' after' hpackages' hsame
      have hbefore' : before.map (packageRecords tree' o) = found.map .ok := by
        rw [← hbefore]
        exact List.map_congr_left fun p hp => hsame p (by simp [hp])
      have hd' : packageRecords tree' o d = .error failure :=
        (hsame d (by simp)).trans hd
      obtain ⟨hwritten', houtcome'⟩ := run_of_first_error hpackages' hbefore' hd'
      exact ⟨hwritten'.trans hwritten.symm, houtcome'.trans houtcome.symm⟩

end SetterReport.Report
