import SetterReport.Program
import SetterReport.Proofs.ReportRun
import SetterReport.Proofs.SetterCount

/-!
# The status of a run

A report adds up the setters it lists and comes out as that number.  `Lists` gives the
number without any report: the metadata files of all packages can be read, and so many of
the setters they declare pass the filter.  Formats and substitutions are no part of it.

The step is one package (`outcome_blocks_cons`), and the induction over the packages
carries the number so far (`outcome_blocks_iff`).  The program turns the status into its
exit code and leaves the text as it is (`run_of_asksFor`).

## Main result

* `status_exit_output` — the outcome of every report, and the exit code and the output of
  every command line that asks for one.
-/

namespace SetterReport.Report

/-- The setter has the name asked for, if there is one. -/
def Passes (name : Option Text) (s : Setter) : Prop :=
  ∀ n ∈ name, s.name = n

instance (name : Option Text) : DecidablePred (Passes name) := by
  intro s
  unfold Passes
  infer_instance

/-- The number of setters in several metadata files that pass a filter. -/
def passing (name : Option Text) (declared : List Records) : Nat :=
  (declared.flatMap (·.setters)).countP (Passes name ·)

/-- The metadata files of all packages at and below a root can be read, and so many of the
setters that they declare pass the filter. -/
def Lists (tree : FileTree) (marker : Text) (name : Option Text) (root : Path) (n : Nat) : Prop :=
  ∃ packages declared, Package.directories tree root marker = .ok packages ∧
    packages.map (fun d => Metadata.readFile tree (d.join marker)) = declared.map .ok ∧
    n = passing name declared

/-- A report can list one number of setters only. -/
theorem Lists.unique {tree : FileTree} {marker : Text} {name : Option Text} {root : Path}
    {m n : Nat} (hm : Lists tree marker name root m) (hn : Lists tree marker name root n) :
    m = n := by
  obtain ⟨packages, declared, hpackages, hread, rfl⟩ := hm
  obtain ⟨packages', declared', hpackages', hread', rfl⟩ := hn
  obtain rfl := Except.ok.inj (hpackages.symm.trans hpackages')
  have hsame : declared.map Except.ok = declared'.map .ok := hread.symm.trans hread'
  rw [List.map_injective_iff.2 (fun _ _ => Except.ok.inj) hsame]

theorem passing_cons (name : Option Text) (r : Records) (declared : List Records) :
    passing name (r :: declared) = (r.named name).setters.length + passing name declared := by
  unfold passing
  rw [List.flatMap_cons, List.countP_append]
  congr 1
  cases name with
  | none => simp [Passes, Records.named]
  | some n =>
      show _ = (r.setters.filter _).length
      rw [List.countP_eq_length_filter]
      congr 2
      funext s
      simp [Passes, Bool.beq_eq_decide_eq]

/-! ## One package -/

section Step

variable {tree : FileTree} {o : Options} {directory : Path}

/-- The records of a package are those that its metadata file declares, counted. -/
theorem packageRecords_of_readFile {r : Records}
    (h : Metadata.readFile tree (directory.join o.marker) = .ok r) :
    packageRecords tree o directory =
      .ok (Extraction.extractFrom tree r (directory.join o.marker) o.name).records := by
  unfold packageRecords
  rw [Extraction.extract_of_readFile h]
  rfl

theorem packageRecords_of_readFile_error {failure : Failure}
    (h : Metadata.readFile tree (directory.join o.marker) = .error failure) :
    packageRecords tree o directory = .error failure := by
  unfold packageRecords Extraction.extract
  rw [h]
  rfl

/-- A package adds the setters of its metadata file that pass the filter. -/
theorem outcome_blocks_cons {r : Records}
    (h : Metadata.readFile tree (directory.join o.marker) = .ok r)
    (packages total : Nat) (rest : List Path) :
    (blocks tree o packages total (directory :: rest)).outcome =
      (blocks tree o packages (total + (r.named o.name).setters.length) rest).outcome := by
  obtain ⟨-, houtcome⟩ := blocks_cons (packageRecords_of_readFile h) packages total rest
  rw [houtcome, Extraction.records_extractFrom]
  simp only [List.length_map]

end Step

/-! ## All packages -/

/-- What comes out of several packages is the number of setters in their metadata files,
if all of these can be read. -/
theorem outcome_blocks_iff {tree : FileTree} {o : Options} {packages total : Nat}
    {directories : List Path} {status : Status} :
    (blocks tree o packages total directories).outcome = .ok status ↔
      ∃ declared : List Records,
        directories.map (fun d => Metadata.readFile tree (d.join o.marker)) = declared.map .ok ∧
        status = .ofCount (total + passing o.name declared) := by
  -- the total is what the packages before have listed, so the induction is over all totals
  induction directories generalizing total with
  | nil => simp [blocks, passing, eq_comm]
  | cons directory rest ih =>
      cases hread : Metadata.readFile tree (directory.join o.marker) with
      | error failure =>
          have herror := packageRecords_of_readFile_error hread
          rw [(blocks_cons_error herror packages total rest).2]
          constructor
          · intro h
            simp at h
          · rintro ⟨declared, hmap, -⟩
            cases declared <;> simp [hread] at hmap
      | ok r =>
          rw [outcome_blocks_cons hread, ih]
          constructor
          · rintro ⟨declared, hmap, rfl⟩
            refine ⟨r :: declared, by simp [hread, hmap], ?_⟩
            rw [passing_cons, Nat.add_assoc]
          · rintro ⟨declared, hmap, rfl⟩
            cases declared with
            | nil => simp at hmap
            | cons r' declared =>
                obtain ⟨rfl, hrest⟩ : r = r' ∧ _ := by simpa [hread] using hmap
                refine ⟨declared, hrest, ?_⟩
                rw [passing_cons, Nat.add_assoc]

/-- What comes out does not depend on what is shown. -/
theorem outcome_blocks_congr {tree : FileTree} {o o' : Options} (hmarker : o.marker = o'.marker)
    (hname : o.name = o'.name) (packages total : Nat) (directories : List Path) :
    (blocks tree o packages total directories).outcome =
      (blocks tree o' packages total directories).outcome := by
  have hsame : ∀ d, packageRecords tree o' d = packageRecords tree o d := by
    intro d
    unfold packageRecords
    rw [hmarker, hname]
  induction directories generalizing total with
  | nil => rfl
  | cons directory rest ih =>
      cases hrecords : packageRecords tree o directory with
      | error failure =>
          rw [(blocks_cons_error hrecords packages total rest).2,
            (blocks_cons_error ((hsame directory).trans hrecords) packages total rest).2]
      | ok r =>
          rw [(blocks_cons hrecords packages total rest).2,
            (blocks_cons ((hsame directory).trans hrecords) packages total rest).2]
          exact ih (total + r.setters.length)

theorem outcome_run_congr {tree : FileTree} {o o' : Options} (hmarker : o.marker = o'.marker)
    (hname : o.name = o'.name) (root : Path) :
    (run tree o root).outcome = (run tree o' root).outcome := by
  unfold run
  rw [hmarker]
  cases Package.directories tree root o'.marker with
  | error failure => rfl
  | ok directories => exact outcome_blocks_congr hmarker hname directories.length 0 directories

theorem outcome_run_iff {tree : FileTree} {o : Options} {root : Path} {status : Status} :
    (run tree o root).outcome = .ok status ↔
      ∃ n, Lists tree o.marker o.name root n ∧ status = if n = 0 then .noResults else .found n := by
  unfold run Lists
  cases hpackages : Package.directories tree root o.marker with
  | error failure => simp
  | ok packages =>
      show (blocks tree o packages.length 0 packages).outcome = .ok status ↔ _
      rw [outcome_blocks_iff]
      constructor
      · rintro ⟨declared, hmap, rfl⟩
        refine ⟨passing o.name declared, ⟨packages, declared, rfl, hmap, rfl⟩, ?_⟩
        rw [Nat.zero_add]
        rfl
      · rintro ⟨n, ⟨packages', declared, hsame, hmap, rfl⟩, rfl⟩
        obtain rfl := Except.ok.inj hsame
        refine ⟨declared, hmap, ?_⟩
        rw [Nat.zero_add]
        rfl

end SetterReport.Report

namespace SetterReport.Program

open CommandLine

/-! ## The program -/

/-- A command line is accepted and asks for a report, under a marker name that is
resolved. -/
def AsksFor (env : Environment) (words : List Text) (marker : Text) (a : ListArguments) : Prop :=
  ∃ i, parse env words = .ok i ∧ i.command = .listSetters a ∧
    Marker.resolve i.markerName = .ok marker

/-- The report that is asked for. -/
def reportOf (tree : FileTree) (marker : Text) (a : ListArguments) : Report.Run :=
  Report.run tree (reportOptions marker a) ⟨a.dir⟩

section Asked

variable {tree : FileTree} {env : Environment} {words : List Text} {marker : Text}
  {a : ListArguments}

/-- The program writes the report and makes an exit code of its outcome. -/
theorem run_of_asksFor (h : AsksFor env words marker a) :
    (run tree env words).output = (reportOf tree marker a).written ∧
      (run tree env words).exit = match (reportOf tree marker a).outcome with
        | .error _ => failed
        | .ok status => if failsRun a.failOnEmpty status then failed else success := by
  obtain ⟨i, hparse, hcommand, hmarker⟩ := h
  unfold run
  simp only [hparse, execute, hcommand, listSetters, hmarker]
  show _ = (Report.run _ _ _).written ∧ _
  unfold reportOf
  cases (Report.run tree (reportOptions marker a) ⟨a.dir⟩).outcome with
  | error failure => exact ⟨rfl, rfl⟩
  | ok status => exact ⟨rfl, rfl⟩

theorem exit_of_error (h : AsksFor env words marker a) {failure : Failure}
    (houtcome : (reportOf tree marker a).outcome = .error failure) :
    (run tree env words).exit = 1 := by
  rw [(run_of_asksFor h).2, houtcome]
  rfl

theorem exit_of_lists (h : AsksFor env words marker a) {n : Nat}
    (hlists : Report.Lists tree marker a.name ⟨a.dir⟩ n) :
    (run tree env words).exit = if a.failOnEmpty = true ∧ n = 0 then 1 else 0 := by
  have houtcome : (reportOf tree marker a).outcome =
      .ok (if n = 0 then .noResults else .found n) :=
    Report.outcome_run_iff.2 ⟨n, hlists, rfl⟩
  rw [(run_of_asksFor h).2, houtcome]
  by_cases hempty : n = 0
  · simp [failsRun, failed, success, hempty]
  · simp [failsRun, success, hempty]

end Asked

/-- How reports come out.  The outcome does not depend on the format nor on whether
substitutions are shown.  A report succeeds when the metadata files of all packages can be
read, and its status is the number of their setters that pass the filter.

A command line that asks for a report exits with 1 exactly when the report fails, or when
nothing is listed and that is to count as a failure, and with 0 otherwise.  What it writes is
the same for all command lines that ask for the same report, be they verbose or not and
whatever an empty report counts as. -/
theorem status_exit_output (tree : FileTree) :
    (∀ marker name root,
      (∀ format format' subst subst',
        (Report.run tree ⟨marker, name, format, subst⟩ root).outcome =
          (Report.run tree ⟨marker, name, format', subst'⟩ root).outcome) ∧
      ∀ format subst status,
        (Report.run tree ⟨marker, name, format, subst⟩ root).outcome = .ok status ↔
          ∃ n, Report.Lists tree marker name root n ∧
            status = if n = 0 then .noResults else .found n) ∧
    ∀ env words marker a, AsksFor env words marker a →
      ((run tree env words).exit = 1 ↔
        (∃ failure, (reportOf tree marker a).outcome = .error failure) ∨
          (a.failOnEmpty = true ∧ Report.Lists tree marker a.name ⟨a.dir⟩ 0)) ∧
      ((run tree env words).exit ≠ 1 → (run tree env words).exit = 0) ∧
      ∀ env' words' a', AsksFor env' words' marker a' →
        a' = { a with failOnEmpty := a'.failOnEmpty } →
        (run tree env' words').output = (run tree env words).output := by
  refine ⟨?_, ?_⟩
  · intro marker name root
    constructor
    · intro format format' subst subst'
      apply Report.outcome_run_congr
      · rfl
      · rfl
    · intro format subst status
      exact Report.outcome_run_iff
  · intro env words marker a hasks
    refine ⟨?_, ?_, ?_⟩
    · cases houtcome : (reportOf tree marker a).outcome with
      | error failure => exact iff_of_true (exit_of_error hasks houtcome) (Or.inl ⟨failure, rfl⟩)
      | ok status =>
          obtain ⟨n, hn, -⟩ := Report.outcome_run_iff.1 houtcome
          rw [exit_of_lists hasks hn]
          constructor
          · intro hexit
            by_cases hempty : a.failOnEmpty = true ∧ n = 0
            · obtain ⟨hfails, rfl⟩ := hempty
              exact Or.inr ⟨hfails, hn⟩
            · rw [if_neg hempty] at hexit
              omega
          · rintro (⟨failure, hfailure⟩ | ⟨hfails, hzero⟩)
            · simp at hfailure
            · exact if_pos ⟨hfails, hn.unique hzero⟩
    · intro hne
      cases houtcome : (reportOf tree marker a).outcome with
      | error failure => exact absurd (exit_of_error hasks houtcome) hne
      | ok status =>
          obtain ⟨n, hn, -⟩ := Report.outcome_run_iff.1 houtcome
          rw [exit_of_lists hasks hn] at hne ⊢
          by_cases hempty : a.failOnEmpty = true ∧ n = 0
          · exact absurd (if_pos hempty) hne
          · exact if_neg hempty
    · intro env' words' a' hasks' hsame
      rw [(run_of_asksFor hasks).1, (run_of_asksFor hasks').1, hsame]
      rfl

/-! ## A substitution of the name asked for -/

/-- A package that declares a setter and a substitution. -/
def imageTree : FileTree :=
  .directory [("Krmfile".toList, FileTree.ofText
    ("openAPI:\n".toList ++
      "  definitions:\n".toList ++
      "    io.k8s.cli.setters.tag:\n".toList ++
      "      x-k8s-cli:\n".toList ++
      "        setter: \x7b\x7d\n".toList ++
      "    io.k8s.cli.substitutions.image:\n".toList ++
      "      x-k8s-cli:\n".toList ++
      "        substitution: \x7b\x7d\n".toList))]

/-- What is to be listed: everything with the name of the substitution. -/
def imageArguments (failOnEmpty : Bool) : ListArguments where
  dir := ['.']
  name := some "image".toList
  markdown := false
  includeSubst := true
  failOnEmpty := failOnEmpty

/-- A command line for which an empty report is a failure. -/
def strictWords : List Text :=
  ["list-setters".toList, "--include-subst".toList, "--fail-on-empty".toList, ['.'],
    "image".toList]

/-- A verbose command line for which it is none. -/
def lenientWords : List Text :=
  ["-v".toList, "list-setters".toList, ['.'], "image".toList, "--include-subst".toList]

/-- The general statement where a substitution is all that is shown. -/
theorem status_exit_output_substitution :
    AsksFor {} strictWords Marker.standard (imageArguments true) ∧
    AsksFor {} lenientWords Marker.standard (imageArguments false) ∧
    Report.Lists imageTree Marker.standard (some "image".toList) ⟨['.']⟩ 0 ∧
    (run imageTree {} strictWords).exit = 1 ∧ (run imageTree {} lenientWords).exit = 0 ∧
    (run imageTree {} lenientWords).output = (run imageTree {} strictWords).output := by
  have hstrict : AsksFor {} strictWords Marker.standard (imageArguments true) :=
    ⟨⟨none, false, .listSetters (imageArguments true)⟩, by decide +kernel, rfl, rfl⟩
  have hlenient : AsksFor {} lenientWords Marker.standard (imageArguments false) :=
    ⟨⟨none, true, .listSetters (imageArguments false)⟩, by decide +kernel, rfl, rfl⟩
  have houtcome : (Report.run imageTree ⟨Marker.standard, some "image".toList, .plain, true⟩
      ⟨['.']⟩).outcome = .ok .noResults := by
    decide +kernel
  obtain ⟨hreports, hprogram⟩ := status_exit_output imageTree
  obtain ⟨n, hn, hstatus⟩ := ((hreports _ _ _).2 .plain true .noResults).1 houtcome
  have hzero : n = 0 := by
    by_contra hne
    simp [hne] at hstatus
  subst hzero
  obtain ⟨hexit, -, hsame⟩ := hprogram {} strictWords _ _ hstrict
  obtain ⟨hexit', hother, -⟩ := hprogram {} lenientWords _ _ hlenient
  refine ⟨hstrict, hlenient, hn, hexit.2 (Or.inr ⟨rfl, hn⟩), hother ?_, ?_⟩
  · intro hone
    rcases hexit'.1 hone with ⟨failure, hfailure⟩ | ⟨hfails, -⟩
    · exact absurd (houtcome.symm.trans hfailure) (by simp)
    · exact absurd hfails (by decide)
  · exact hsame {} lenientWords _ hlenient rfl

end SetterReport.Program
