import SetterReport.Text.Basic

/-!
# Log lines

What a run tells beside its result. Lines are values like any other: an
operation returns the lines it adds, and only the outermost layer decides which
of them are shown.
-/

namespace SetterReport

/-- How much a log line matters. -/
inductive LogLevel
  | debug
  | warning
deriving DecidableEq

/-- One line of a run's log. -/
structure LogLine where
  level : LogLevel
  message : Text
deriving DecidableEq

namespace LogLine

/-- A line on the ordinary course of a run. -/
def debug (message : Text) : LogLine := ⟨.debug, message⟩

/-- A line on something that was passed over. -/
def warning (message : Text) : LogLine := ⟨.warning, message⟩

/-- The line with its level in front. -/
def render (line : LogLine) : Text :=
  (match line.level with
    | .debug => "DEBUG ".toList
    | .warning => "WARN ".toList) ++ line.message

/-- The lines to show: all of them, or the warnings only. -/
def shown (verbose : Bool) (lines : List LogLine) : List LogLine :=
  if verbose then lines else lines.filter (·.level = .warning)

end LogLine

end SetterReport
