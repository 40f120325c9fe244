import SetterReport.Text.Basic

/-!
# References to definitions

A metadata file holds *definitions*, and two kinds of them matter here: setters
and substitutions. A definition is pointed at by the text `#/definitions/`,
followed by the marker of its kind, followed by its name. The kind marker alone,
without `#/definitions/`, opens the key under which the definition is stored.

`ofSetter` and `ofSubstitution` build references, `display` takes one apart for
a reader: it removes one leading `#/definitions/` together with one kind marker
and leaves every other text as it is, so that foreign references stay visible.
-/

namespace SetterReport.Reference

/-- What every reference to a definition starts with. -/
def definitions : Text := "#/definitions/".toList

/-- The kind marker of setters. -/
def setterKind : Text := "io.k8s.cli.setters.".toList

/-- The kind marker of substitutions. -/
def substitutionKind : Text := "io.k8s.cli.substitutions.".toList

/-- The reference to the setter of this name. -/
def ofSetter (name : Text) : Text :=
  definitions ++ setterKind ++ name

/-- The reference to the substitution of this name. -/
def ofSubstitution (name : Text) : Text :=
  definitions ++ substitutionKind ++ name

/-- What follows `#/definitions/` and the kind marker, if the text starts with them. -/
def afterKind? (kind reference : Text) : Option Text :=
  (definitions.isPrefixOf? reference).bind kind.isPrefixOf?

/-- The name a reference shows to a reader; a foreign reference shows itself. -/
def display (reference : Text) : Text :=
  ((afterKind? setterKind reference).or (afterKind? substitutionKind reference)).getD reference

/-- The name that a definition's key gives by itself: the key without its kind marker. -/
def nameOfKey (kind key : Text) : Text :=
  (kind.isPrefixOf? key).getD key

end SetterReport.Reference
