import SetterReport.Extraction
import SetterReport.Package
import SetterReport.RecordTable

/-!
# The report

For every package at or below a root, in path order, a block is written: the
directory on a line of its own, the table of its setters, and on request the
table of its substitutions. The first package that fails ends the report. What
was written before stays, and so does the line with the directory that failed.
-/

namespace SetterReport.Report

/-- What a report is to show. -/
structure Options where
  /-- The name of the file that marks a package. -/
  marker : Text
  /-- The only name to report, if there is one. -/
  name : Option Text := none
  format : Table.Format := .plain
  includeSubstitutions : Bool := false

/-- How a completed report came out. -/
inductive Status
  /-- So many setters were listed, at least one. -/
  | found (setters : Nat)
  | noResults
deriving DecidableEq

/-- The status of a number of setters. -/
def Status.ofCount (setters : Nat) : Status :=
  if setters = 0 then .noResults else .found setters

/-- What a report wrote, how it came out, and what it told beside. -/
structure Run where
  written : Text
  outcome : Except Failure Status
  log : List LogLine

/-- The line that names a package. -/
def headerLine (directory : Path) : Text :=
  directory.asDirectory ++ ['\n']

/-- The tables of a package. -/
def tables (o : Options) (r : Records) : Text :=
  Setter.table o.format r.setters ++
    if o.includeSubstitutions then Substitution.table o.format r.substitutions else []

/-- The block of one package: what is written, and its records or the failure. -/
def block (tree : FileTree) (o : Options) (directory : Path) :
    Text × Except Failure Extraction.Extracted :=
  match Extraction.extract tree (Package.metadataPath directory o.marker) o.name with
  | .error failure => (headerLine directory, .error failure)
  | .ok e => (headerLine directory ++ tables o e.records, .ok e)

/-- What is told at the end of a report. -/
def listedLine (setters packages : Nat) : LogLine :=
  .debug ("Listed ".toList ++ Text.ofNat setters ++ " setter(s) across ".toList ++
    Text.ofNat packages ++ " package(s)".toList)

/-- The blocks of the remaining packages, when `total` setters have been listed so far. -/
def blocks (tree : FileTree) (o : Options) (packages : Nat) : (total : Nat) → List Path → Run
  | total, [] => ⟨[], .ok (.ofCount total), [listedLine total packages]⟩
  | total, directory :: rest =>
    match block tree o directory with
    | (text, .error failure) => ⟨text, .error failure, []⟩
    | (text, .ok e) =>
      let later := blocks tree o packages (total + e.records.setters.length) rest
      ⟨text ++ later.written, later.outcome, e.log ++ later.log⟩

/-- The report on all packages at and below a root. -/
def run (tree : FileTree) (o : Options) (root : Path) : Run :=
  match Package.directories tree root o.marker with
  | .error failure => ⟨[], .error failure, []⟩
  | .ok directories =>
    let r := blocks tree o directories.length 0 directories
    { r with log := Package.foundLine o.marker root directories :: r.log }

end SetterReport.Report
