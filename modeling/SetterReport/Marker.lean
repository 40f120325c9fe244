import SetterReport.Failure

/-!
# The marker file name

A directory is a package when it directly holds the *marker* file, whose name
may be configured. A configured name is trimmed and must then be a bare file
name: not empty, without `/` and `\`, and neither `.` nor `..`. Those are the
names that come back unchanged from a path they are joined to.
-/

namespace SetterReport.Marker

/-- The marker name when none is configured. -/
def standard : Text := "Krmfile".toList

/-- The environment variable that configures the marker name. -/
def environmentName : Text := "CFGMETA_OPENAPI_FILE".toList

/-- Why a configured name is refused. -/
inductive Refusal
  | empty
  | hasSeparator (name : Text)
  | notAFile (name : Text)
deriving DecidableEq

namespace Refusal

/-- The refusal as one phrase. -/
def text : Refusal → Text
  | empty => "metadata file name must not be empty".toList
  | hasSeparator name =>
    "metadata file name '".toList ++ name ++ "' must not contain a path separator".toList
  | notAFile name => "metadata file name '".toList ++ name ++ "' is not a file name".toList

end Refusal

/-- Checks a trimmed name. -/
def check (name : Text) : Except Refusal Text :=
  if name.isEmpty then .error .empty
  else if name.contains '/' || name.contains '\\' then .error (.hasSeparator name)
  else if name == ['.'] || name == ['.', '.'] then .error (.notAFile name)
  else .ok name

/-- The marker name that a configuration stands for. -/
def resolve : Option Text → Except Failure Text
  | none => .ok standard
  | some name =>
    match check (Text.trim name) with
    | .ok n => .ok n
    | .error refusal => .error (.invalidConfiguration refusal.text)

end SetterReport.Marker
