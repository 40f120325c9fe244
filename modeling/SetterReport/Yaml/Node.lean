import SetterReport.Yaml.Token

/-!
# Documents as trees of nodes

A node is a scalar, a sequence, a mapping, or an alias that stands for another
node. Tags are resolved to their full text, and nothing else is interpreted.

Anchors are numbered: each gets the number of different names that have been
used before it, and an alias refers to the number that its name had last. Two
anchors may thus share a number, and the later of them, in the order of the
text, is the one that is meant. `definitions` lists all numbered nodes in that
order.
-/

namespace SetterReport.Yaml

/-- The tag of a node. -/
inductive Tag
  | none
  /-- A tag whose escapes do not form characters. -/
  | unreadable
  | text (t : Text)
deriving DecidableEq

namespace Tag

/-- What starts the tags of the standard types. -/
def standard : Text := "tag:yaml.org,2002:".toList

/-- The name of a local tag: what follows the exclamation mark, or that mark alone. -/
def localName? : Tag → Option Text
  | text ['!'] => some ['!']
  | text ('!' :: name) => some name
  | _ => Option.none

end Tag

/-- A node of a document. -/
inductive Node
  | scalar (anchor : Option Nat) (tag : Tag) (text : Text) (isPlain : Bool)
  | sequence (anchor : Option Nat) (tag : Tag) (items : List Node)
  | mapping (anchor : Option Nat) (tag : Tag) (entries : List (Node × Node))
  | aliasTo (anchor : Nat)

namespace Node

/-- A scalar without content. -/
def empty : Node := scalar none .none [] true

mutual

/-- The numbered nodes at and below a node, in the order of the text. -/
def definitions : Node → List (Nat × Node)
  | scalar anchor tag text isPlain =>
    (anchor.map (·, scalar anchor tag text isPlain)).toList
  | sequence anchor tag items =>
    (anchor.map (·, sequence anchor tag items)).toList ++ itemDefinitions items
  | mapping anchor tag entries =>
    (anchor.map (·, mapping anchor tag entries)).toList ++ entryDefinitions entries
  | aliasTo _ => []
termination_by structural node => node

/-- The numbered nodes in some items. -/
def itemDefinitions : List Node → List (Nat × Node)
  | [] => []
  | item :: rest => definitions item ++ itemDefinitions rest
termination_by structural items => items

/-- The numbered nodes in some entries. -/
def entryDefinitions : List (Node × Node) → List (Nat × Node)
  | [] => []
  | (k, v) :: rest => definitions k ++ definitions v ++ entryDefinitions rest
termination_by structural entries => entries

end

mutual

/-- The number of steps in which a node is announced: two for a collection, one for others. -/
def steps : Node → Nat
  | scalar .. => 1
  | aliasTo _ => 1
  | sequence _ _ items => 2 + itemSteps items
  | mapping _ _ entries => 2 + entrySteps entries
termination_by structural node => node

/-- The steps of some items. -/
def itemSteps : List Node → Nat
  | [] => 0
  | item :: rest => steps item + itemSteps rest
termination_by structural items => items

/-- The steps of some entries. -/
def entrySteps : List (Node × Node) → Nat
  | [] => 0
  | (k, v) :: rest => steps k + steps v + entrySteps rest
termination_by structural entries => entries

end

/-- The node that a number stands for. -/
def definition? (table : List (Nat × Node)) (anchor : Nat) : Option Node :=
  (table.reverse.find? (·.1 == anchor)).map (·.2)

end Node

end SetterReport.Yaml
