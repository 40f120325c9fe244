import SetterReport.Text.Basic

/-!
# Tokens of YAML

What a text consists of once characters have been grouped: marks of structure,
names, and scalars. Indentation shows as tokens of its own, which open and
close block collections. A tag keeps its handle and its suffix apart, for the
handle may be declared by a directive.
-/

namespace SetterReport.Yaml

/--
A part of a tag, decoded. It cannot be read when escapes in it do not form
characters.
-/
structure TagText where
  text : Text
  isReadable : Bool
deriving DecidableEq

/-- The smallest units that the grammar knows. -/
inductive Token
  | versionDirective (major minor : Nat)
  | tagDirective (handle : Text) (lead : TagText)
  | documentStart
  | documentEnd
  | blockSequenceStart
  | blockMappingStart
  | blockEnd
  | flowSequenceStart
  | flowSequenceEnd
  | flowMappingStart
  | flowMappingEnd
  | blockEntry
  | flowEntry
  | key
  | value
  | aliasTo (name : Text)
  | anchor (name : Text)
  /-- A tag whose handle is to be looked up; none for a tag that is given in full. -/
  | tag (handle : Option Text) (suffix : TagText)
  | scalar (text : Text) (isPlain : Bool)
deriving DecidableEq

end SetterReport.Yaml
