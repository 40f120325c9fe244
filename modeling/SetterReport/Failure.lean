import SetterReport.Text.Basic

/-!
# Why a run fails

`Failure` lists the ways in which a report cannot be made, each with the names
that its message needs. The wording is kept apart from the causes: `message` is
the sentence for a reader, `code` the stable identifier of the kind of failure,
and `help` the advice, if there is any.

A file operation that goes wrong reports a `FileFault`: its text, and whether
the file was missing. Only that one bit of it decides between the two failures
`fileNotFound` and `fileError`.
-/

namespace SetterReport

/-- The fault of a file operation. -/
structure FileFault where
  /-- The fault is that nothing is there. -/
  isMissing : Bool
  text : Text
deriving DecidableEq

/-- Why the content of a metadata file was refused. -/
inductive MetadataFault
  /-- The content is no single well-formed document. -/
  | malformed
  /-- The document has the wrong shape, for the reason given. -/
  | misshapen (reason : Text)
deriving DecidableEq

namespace MetadataFault

/-- The fault as one phrase. -/
def text : MetadataFault → Text
  | malformed => "not a well-formed document".toList
  | misshapen reason => reason

end MetadataFault

/-- Why a run fails. -/
inductive Failure
  /-- No directory at or below `root` holds a file of this name. -/
  | markerNotFound (marker root : Text)
  /-- The metadata file at `path` was refused. -/
  | metadataRefused (path : Text) (fault : MetadataFault)
  | invalidConfiguration (reason : Text)
  | fileNotFound (path : Text)
  | fileError (text : Text)
deriving DecidableEq

namespace Failure

/-- The failure as one sentence. -/
def message : Failure → Text
  | markerNotFound marker root => "unable to find ".toList ++ marker ++ " in ".toList ++ root
  | metadataRefused path fault =>
    "Failed to parse metadata file: ".toList ++ path ++ ": ".toList ++ fault.text
  | invalidConfiguration reason => "Invalid configuration: ".toList ++ reason
  | fileNotFound path => "File not found: ".toList ++ path
  | fileError text => "IO error: ".toList ++ text

/-- The identifier of the kind of failure. -/
def code : Failure → Text
  | markerNotFound .. => "cfgmeta::discovery::marker_not_found".toList
  | metadataRefused .. => "cfgmeta::metadata::parse_failed".toList
  | invalidConfiguration .. => "cfgmeta::config::invalid".toList
  | fileNotFound .. => "cfgmeta::fs::not_found".toList
  | fileError .. => "cfgmeta::fs::io_error".toList

/-- Advice for the reader, where there is any. -/
def help : Failure → Option Text
  | markerNotFound .. =>
    some ("Check the directory, or pass --openapi-file " ++
      "if packages use another file name").toList
  | _ => none

/-- The failure of an operation on the file at `path`. -/
def ofFile (path : Text) (fault : FileFault) : Failure :=
  if fault.isMissing then fileNotFound path
  else fileError (path ++ ": ".toList ++ fault.text)

/-- The failure of an operation on no particular file. -/
def ofOutput (fault : FileFault) : Failure :=
  fileError fault.text

end Failure

end SetterReport
