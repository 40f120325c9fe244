import SetterReport.CommandLine.Completions
import SetterReport.CommandLine.Help
import SetterReport.Report

/-!
# The program

A run of the program as a function: from a command line, an environment and a
tree of files to what is written, what is told on the side, and the exit code.
Code 0 is success, 2 a command line that makes no sense, and 1 any other
failure; a report that lists nothing is one only where that is asked for.
-/

namespace SetterReport.Program

open CommandLine

/-- How a run of the program ends. -/
structure Outcome where
  exit : Nat
  /-- What is written to standard output. -/
  output : Text := []
  /-- The log lines to show. -/
  log : List LogLine := []
  failure : Option Failure := none

/-- The exit code of a completed run. -/
def success : Nat := 0

/-- The exit code of a run that failed. -/
def failed : Nat := 1

/-- The exit code for a command line that makes no sense. -/
def misused : Nat := 2

/-- Whether a status counts as a failure of the run. -/
def failsRun (failOnEmpty : Bool) (s : Report.Status) : Bool :=
  failOnEmpty && s = .noResults

/-- What is told after a report. -/
def statusLog : Report.Status → List LogLine
  | .found n => [.debug (Text.ofNat n ++ " setter row(s) listed".toList)]
  | .noResults => []

/-- The options of a report with a marker name. -/
def reportOptions (marker : Text) (a : ListArguments) : Report.Options where
  marker := marker
  name := a.name
  format := if a.markdown then .markdown else .plain
  includeSubstitutions := a.includeSubst

/-- Makes a report. -/
def listSetters (tree : FileTree) (markerName : Option Text) (a : ListArguments) : Outcome :=
  match Marker.resolve markerName with
  | .error failure => ⟨failed, [], [], some failure⟩
  | .ok marker =>
    let r := Report.run tree (reportOptions marker a) ⟨a.dir⟩
    match r.outcome with
    | .error failure => ⟨failed, r.written, r.log, some failure⟩
    | .ok status =>
      ⟨if failsRun a.failOnEmpty status then failed else success, r.written,
        r.log ++ statusLog status, none⟩

/-- Carries out a command. -/
def execute (tree : FileTree) (i : Invocation) : Outcome :=
  match i.command with
  | .listSetters a => listSetters tree i.markerName a
  | .version => ⟨success, versionText, [], none⟩
  | .completions shell => ⟨success, completionScript shell, [], none⟩

/-- The first line of a verbose run. -/
def verboseLine : LogLine :=
  .debug "Verbose mode enabled".toList

/-- Runs the program. -/
def run (tree : FileTree) (env : Environment) (words : List Text) : Outcome :=
  match parse env words with
  | .ok i =>
    let o := execute tree i
    { o with log := LogLine.shown i.verbose (verboseLine :: o.log) }
  | .error (.showHelp level) => ⟨success, helpText level, [], none⟩
  | .error .showVersion => ⟨success, versionLine, [], none⟩
  | .error (.refused _) => ⟨misused, [], [], none⟩

end SetterReport.Program
