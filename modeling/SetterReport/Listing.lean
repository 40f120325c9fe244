import SetterReport.FileTree.Edit
import SetterReport.Json

/-!
# Listings of files

A listing describes a file tree, one entry a line, each a JSON object with a
`path`. The entry is a directory if `dir` is true, a symbolic link if there is
a `link` with its target, and else a file: its content is the text under
`text`, or the bytes under `hex`, two digits each. Directories that are missing
on the way to an entry are made. A line that is no such object is passed over.
-/

namespace SetterReport.Listing

/-- The text of a string member. -/
def textMember? (j : Json) (name : String) : Option Text :=
  (j.member? name.toList).bind Json.text?

/-- Whether a member is true. -/
def holds (j : Json) (name : String) : Bool :=
  match j.member? name.toList with
  | some (.bool b) => b
  | _ => false

/-- The bytes that pairs of hexadecimal digits spell. -/
def bytes : Text → List UInt8
  | a :: b :: rest =>
    (((Text.hexDigit? a).getD 0) * 16 + (Text.hexDigit? b).getD 0).toUInt8 :: bytes rest
  | _ => []

/-- What an entry says is at its path. -/
def node (j : Json) : FileTree :=
  match textMember? j "link" with
  | some target => .link target
  | none =>
    if holds j "dir" then .directory []
    else
      match textMember? j "hex" with
      | some digits => .file ⟨(bytes digits).toArray⟩
      | none => .file (String.ofList ((textMember? j "text").getD [])).toUTF8

/-- Puts what a line describes into a tree. -/
def addLine (tree : FileTree) (line : Text) : FileTree :=
  match Json.read line with
  | none => tree
  | some j =>
    match textMember? j "path" with
    | some path => tree.put ⟨path⟩ (node j)
    | none => tree

/-- The tree that a listing describes. -/
def read (listing : Text) : FileTree :=
  (Text.lines listing).foldl addLine (.directory [])

end SetterReport.Listing
