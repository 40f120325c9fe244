import SetterReport.Yaml.Document
import SetterReport.Yaml.Scalar

/-!
# From nodes to values

Scalars get their meaning, aliases are replaced by what they stand for, and
local tags are kept. Two limits keep the result finite: collections may be
nested at most 128 deep, and aliases may be followed at most a hundred times as
often as the document has parts. A mapping must not have a key twice.

The recursion is on the nesting that is still allowed, so an alias that leads
back to itself runs out of it.
-/

namespace SetterReport.Yaml

/-- What loading goes by. -/
structure LoadContext where
  /-- The numbered nodes of the document. -/
  definitions : List (Nat × Node)
  /-- How often aliases may be followed. -/
  limit : Nat

/-- A step of loading: it may fail, and counts the aliases that were followed. -/
abbrev Loading := StateT Nat Option

namespace Loading

/-- The kind that a tag asks for. -/
def kindOf? : Tag → Option Scalar.Kind
  | .text t =>
    (Tag.standard.isPrefixOf? t).bind fun name =>
      if name == "null".toList then some .null
      else if name == "bool".toList then some .bool
      else if name == "int".toList then some .int
      else if name == "float".toList then some .float
      else none
  | _ => none

/-- The value of a scalar whose tag is no local one. -/
def scalarValue (tag : Tag) (text : Text) (isPlain : Bool) : Option Value :=
  match kindOf? tag, tag with
  | some kind, _ => Scalar.resolveAs kind text
  | none, .text _ => some (.string text)
  | none, _ => if isPlain then Scalar.resolve text else some (.string text)

/-- The entries with one more at the end, whose key must be new. -/
def addEntry (entries : List (Value × Value)) (k v : Value) : Option (List (Value × Value)) :=
  if entries.any fun e => e.1.same k then none else some (entries ++ [(k, v)])

/-- Loads the items of a sequence. -/
def items (load : Node → Loading Value) : List Node → Loading (List Value)
  | [] => return []
  | x :: rest => do
    let v ← load x
    return v :: (← items load rest)

/-- Loads the entries of a mapping after those in `done`. -/
def entries (loadKey loadValue : Node → Loading Value) :
    (done : List (Value × Value)) → List (Node × Node) → Loading (List (Value × Value))
  | done, [] => return done
  | done, (k, v) :: rest => do
    let key ← loadKey k
    let value ← loadValue v
    match addEntry done key value with
    | some done => entries loadKey loadValue done rest
    | none => failure

/-- A value, with the name of a local tag if there is one. -/
def withTag (name : Option Text) (v : Value) : Value :=
  match name with
  | some t => .tagged t v
  | none => v

/-- The name of a node's local tag, unless the tag does not count. -/
def nameOf (ignoresTag : Bool) (tag : Tag) : Option Text :=
  if ignoresTag then none else tag.localName?

/-- The value of a scalar; a local tag leaves the text to speak for itself. -/
def scalar (ignoresTag : Bool) (tag : Tag) (text : Text) (isPlain : Bool) : Option Value :=
  let name := nameOf ignoresTag tag
  if name.isSome || ignoresTag then (scalarValue .none text isPlain).map (withTag name)
  else scalarValue tag text isPlain

/--
The node that is meant: what an alias stands for, or else the node itself. The
tag of what an alias stands for counts in any case.
-/
def follow (context : LoadContext) (ignoresTag : Bool) : Node → Loading (Bool × Node)
  | .aliasTo number => do
    let followed ← get
    set (followed + 1)
    if context.limit < followed + 1 then failure
    else
      match Node.definition? context.definitions number with
      | some target => return (false, target)
      | none => failure
  | n => return (ignoresTag, n)

/-- Loads a node that is no alias; `inner` loads what is nested in it, if anything may be. -/
def content (inner : Option (Bool → Node → Loading Value)) (ignoresTag : Bool) :
    Node → Loading Value
  | .aliasTo _ => failure
  | .scalar _ tag text isPlain => (scalar ignoresTag tag text isPlain : Option Value)
  | .sequence _ tag xs =>
    match inner with
    | none => failure
    | some load => do
      let vs ← items (load false) xs
      return withTag (nameOf ignoresTag tag) (.sequence vs)
  | .mapping _ tag es =>
    match inner with
    | none => failure
    | some load => do
      let name := nameOf ignoresTag tag
      let vs ← entries (load (ignoresTag || name.isSome)) (load false) [] es
      return withTag name (.mapping vs)

/--
Loads a node in which `depth` more collections may be nested. `ignoresTag` says
that its own tag does not count: so it is for the keys of a tagged mapping.
-/
def node (context : LoadContext) : (depth : Nat) → (ignoresTag : Bool) → Node → Loading Value
  | 0, ignoresTag, n => do
    let (ignoresTag, n) ← follow context ignoresTag n
    content none ignoresTag n
  | depth + 1, ignoresTag, n => do
    let (ignoresTag, n) ← follow context ignoresTag n
    content (some (node context depth)) ignoresTag n

end Loading

/-- The number of collections that may be nested. -/
def deepestNesting : Nat := 128

/-- The value of a document. -/
def Value.ofNode (n : Node) : Option Value :=
  let context : LoadContext := ⟨n.definitions, 100 * n.steps⟩
  ((Loading.node context deepestNesting false n).run 0).map (·.1)

/-- The value of the document in a text; none if the text is no well-formed document. -/
def Value.read (t : Text) : Option Value :=
  (Node.read t).bind Value.ofNode

end SetterReport.Yaml
