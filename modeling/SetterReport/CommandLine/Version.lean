import SetterReport.FieldReference
import SetterReport.Marker
import SetterReport.Reference

/-!
# The version text

Besides the version, the conventions by which packages are read are told, so
that a reader of it knows what was looked for.
-/

namespace SetterReport.CommandLine

/-- The name of the program. -/
def programName : Text := "cfgmeta".toList

/-- The version of the program. -/
def programVersion : Text := "0.1.0".toList

/-- The line that names the program and its version. -/
def versionLine : Text :=
  programName ++ ' ' :: programVersion ++ ['\n']

/-- All that the version command tells. -/
def versionText : Text :=
  versionLine ++ "\nMetadata:\n  File: ".toList ++ Marker.standard ++
    " (override with --openapi-file or ".toList ++ Marker.environmentName ++
    ")\n  Reference comments: ".toList ++ Text.join ", ".toList FieldReference.keys ++
    "\n  Definition prefixes: ".toList ++ Reference.setterKind ++ ", ".toList ++
    Reference.substitutionKind ++ "\n\nBuild:\n  MSRV: 1.85\n  Profile: debug\n".toList

end SetterReport.CommandLine
