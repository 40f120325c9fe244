import SetterReport.Yaml.Lexer
import SetterReport.Yaml.Node

/-!
# From tokens to a document

The grammar of YAML over tokens, by recursive descent. A text holds at most one
document. The first document may begin without a mark, and then nothing but the
content may stand before it; directives need one. An entry, a key or a value
that is left out is an empty scalar.

The functions of the grammar work on a `Reader`: the tokens that are left, the
names of anchors so far, and the handles of tags. They recurse on `fuel`, and
`Node.ofTokens` gives more of it than there can be steps.
-/

namespace SetterReport.Yaml

/-- What the grammar goes by. -/
structure Reader where
  tokens : List Token
  /-- The names of anchors and their numbers. -/
  anchors : List (Text × Nat)
  /-- The handles of tags and what they stand for. -/
  handles : List (Text × TagText)

/-- A part of the grammar: it may fail, and moves the reader on. -/
abbrev Grammar := StateT Reader Option

namespace Grammar

/-- The next token. -/
def peek : Grammar (Option Token) := do
  return (← get).tokens.head?

/-- Passes the next token. -/
def skip : Grammar Unit :=
  modify fun r => { r with tokens := r.tokens.tail }

/-- Whether the next token is the given one. -/
def sees (t : Token) : Grammar Bool := do
  return (← peek) == some t

/-- Whether the next token is one of the given ones. -/
def seesAny (ts : List Token) : Grammar Bool := do
  return (← peek).any ts.contains

/-- Passes the given token, which must come next. -/
def expect (t : Token) : Grammar Unit := do
  if ← sees t then skip else failure

/-- Numbers an anchor: its number is that of the different names so far. -/
def addAnchor (name : Text) : Grammar Nat := do
  let r ← get
  let number := r.anchors.length
  set { r with anchors := (name, number) :: r.anchors.filter (·.1 != name) }
  return number

/-- The number that a name stands for. -/
def anchorOf (name : Text) : Grammar Nat := do
  let r ← get
  match r.anchors.find? (·.1 == name) with
  | some (_, number) => return number
  | none => failure

/-- The full tag of a handle and a suffix; the handle has to be declared. -/
def resolveTag (handle : Option Text) (suffix : TagText) : Grammar Tag := do
  let full ←
    match handle with
    | none => pure suffix
    | some h =>
      match (← get).handles.find? (·.1 == h) with
      | some (_, lead) => pure (lead.append suffix)
      | none => failure
  return if full.isReadable then .text full.text else .unreadable

/-! ## Properties of nodes -/

/-- An anchor, if there is one. -/
def optionalAnchor : Grammar (Option Nat) := do
  match ← peek with
  | some (.anchor name) =>
    skip
    return some (← addAnchor name)
  | _ => return none

/-- A tag, if there is one. -/
def optionalTag : Grammar Tag := do
  match ← peek with
  | some (.tag handle suffix) =>
    let tag ← resolveTag handle suffix
    skip
    return tag
  | _ => return .none

/-- An anchor and a tag before a node. -/
structure Properties where
  anchor : Option Nat
  tag : Tag

/-- An anchor and a tag, in either order. -/
def properties : Grammar Properties := do
  match ← optionalAnchor with
  | some anchor => return ⟨some anchor, ← optionalTag⟩
  | none =>
    let tag ← optionalTag
    return ⟨← optionalAnchor, tag⟩

/-! ## Nodes -/

/-- Where a node stands: in brackets, or in a block, where a sequence may be unindented. -/
inductive Place
  | flow
  | block (allowsDashes : Bool)
deriving DecidableEq

/-- An empty scalar if one of the given tokens comes next, else what is asked for. -/
def unlessAny (enders : List Token) (node : Grammar Node) : Grammar Node := do
  if ← seesAny enders then return .empty else node

/-- What follows the mark of a value, if the mark is there; else an empty scalar. -/
def optionalValue (enders : List Token) (node : Grammar Node) : Grammar Node := do
  if ← sees .value then
    skip
    unlessAny enders node
  else return .empty

mutual

/-- A node. -/
def node : (fuel : Nat) → Place → Grammar Node
  | 0, _ => failure
  | fuel + 1, place => do
    match ← peek with
    | some (.aliasTo name) =>
      let number ← anchorOf name
      skip
      return .aliasTo number
    | _ =>
      let p ← properties
      content fuel place p

/-- A node after its properties. -/
def content : (fuel : Nat) → Place → Properties → Grammar Node
  | 0, _, _ => failure
  | fuel + 1, place, p => do
    match ← peek, place with
    | some .blockEntry, .block true => return .sequence p.anchor p.tag (← dashes fuel)
    | some (.scalar text isPlain), _ =>
      skip
      return .scalar p.anchor p.tag text isPlain
    | some .flowSequenceStart, _ =>
      skip
      return .sequence p.anchor p.tag (← flowItems fuel true)
    | some .flowMappingStart, _ =>
      skip
      return .mapping p.anchor p.tag (← flowEntries fuel true)
    | some .blockSequenceStart, .block _ =>
      skip
      return .sequence p.anchor p.tag (← blockItems fuel)
    | some .blockMappingStart, .block _ =>
      skip
      return .mapping p.anchor p.tag (← blockEntries fuel)
    | _, _ =>
      if p.anchor.isSome || p.tag != .none then
        return .scalar p.anchor p.tag [] true
      else failure

/-- The entries of an indented sequence, with its end. -/
def blockItems : (fuel : Nat) → Grammar (List Node)
  | 0 => failure
  | fuel + 1 => do
    if ← sees .blockEntry then
      skip
      let item ← unlessAny [.blockEntry, .blockEnd] (node fuel (.block false))
      return item :: (← blockItems fuel)
    else
      expect .blockEnd
      return []

/-- The entries of a sequence that is not indented, which has no end of its own. -/
def dashes : (fuel : Nat) → Grammar (List Node)
  | 0 => failure
  | fuel + 1 => do
    if ← sees .blockEntry then
      skip
      let item ← unlessAny [.blockEntry, .key, .value, .blockEnd] (node fuel (.block false))
      return item :: (← dashes fuel)
    else return []

/-- The entries of a block mapping, with its end. -/
def blockEntries : (fuel : Nat) → Grammar (List (Node × Node))
  | 0 => failure
  | fuel + 1 => do
    if ← sees .key then
      skip
      let enders := [.key, .value, .blockEnd]
      let k ← unlessAny enders (node fuel (.block true))
      let v ← optionalValue enders (node fuel (.block true))
      return (k, v) :: (← blockEntries fuel)
    else
      expect .blockEnd
      return []

/-- The items of a sequence in brackets, with the closing one. -/
def flowItems : (fuel : Nat) → (isFirst : Bool) → Grammar (List Node)
  | 0, _ => failure
  | fuel + 1, isFirst => do
    if ← sees .flowSequenceEnd then
      skip
      return []
    else
      if !isFirst then expect .flowEntry
      if ← sees .flowSequenceEnd then
        skip
        return []
      else if ← sees .key then
        skip
        let item ← pair fuel
        return item :: (← flowItems fuel false)
      else
        let item ← node fuel .flow
        return item :: (← flowItems fuel false)

/--
A single pair in a sequence in brackets, which is a mapping of its own. A key
that is left out takes the token in its place with it.
-/
def pair : (fuel : Nat) → Grammar Node
  | 0 => failure
  | fuel + 1 => do
    let k ←
      if ← seesAny [.value, .flowEntry, .flowSequenceEnd] then do
        skip
        pure Node.empty
      else node fuel .flow
    let v ← optionalValue [.flowEntry, .flowSequenceEnd] (node fuel .flow)
    return .mapping none .none [(k, v)]

/-- The entries of a mapping in braces, with the closing one. -/
def flowEntries : (fuel : Nat) → (isFirst : Bool) → Grammar (List (Node × Node))
  | 0, _ => failure
  | fuel + 1, isFirst => do
    if ← sees .flowMappingEnd then
      skip
      return []
    else
      if !isFirst then expect .flowEntry
      if ← sees .flowMappingEnd then
        skip
        return []
      else if ← sees .key then
        skip
        let k ← unlessAny [.value, .flowEntry, .flowMappingEnd] (node fuel .flow)
        let v ← optionalValue [.flowEntry, .flowMappingEnd] (node fuel .flow)
        return (k, v) :: (← flowEntries fuel false)
      else
        let k ← node fuel .flow
        return (k, .empty) :: (← flowEntries fuel false)

end

end Grammar

/-! ## Documents -/

/-- The handles that need no directive. -/
def standardHandles : List (Text × TagText) :=
  [(['!'], ⟨['!'], true⟩), (['!', '!'], ⟨Tag.standard, true⟩)]

/-- Whether a version can be read. -/
def isKnownVersion (major minor : Nat) : Bool :=
  major == 1 && (minor == 1 || minor == 2)

/--
Reads the directives in front of a document: at most one version, and tag
handles, each at most once.
-/
def readDirectives : (hasVersion : Bool) → (handles : List (Text × TagText)) → List Token →
    Option (List (Text × TagText) × List Token)
  | hasVersion, handles, .versionDirective major minor :: rest =>
    if hasVersion || !isKnownVersion major minor then none
    else readDirectives true handles rest
  | hasVersion, handles, .tagDirective handle lead :: rest =>
    if handles.any (·.1 == handle) then none
    else readDirectives hasVersion (handles ++ [(handle, lead)]) rest
  | _, handles, rest => some (handles, rest)

/-- The tokens that a document's content cannot start with. -/
def isOutside : Token → Bool
  | .versionDirective .. => true
  | .tagDirective .. => true
  | .documentStart => true
  | .documentEnd => true
  | _ => false

/-- More than the number of steps in which some tokens can be read. -/
def enoughFuel (tokens : List Token) : Nat :=
  4 * tokens.length + 8

/-- Reads the content of a document and checks that nothing but end marks follows. -/
def readBody (handles : List (Text × TagText)) (tokens : List Token) : Option Node := do
  let (node, r) ← (Grammar.node (enoughFuel tokens) (.block false)).run ⟨tokens, [], handles⟩
  if r.tokens.all (· == .documentEnd) then some node else none

/-- Reads a document whose content may be left out. -/
def readMarkedBody (handles : List (Text × TagText)) (tokens : List Token) : Option Node :=
  match tokens with
  | [] => some .empty
  | t :: _ =>
    if isOutside t then
      if tokens.all (· == .documentEnd) then some .empty else none
    else readBody handles tokens

/-- The document that tokens form; an empty list of them forms an empty scalar. -/
def Node.ofTokens (tokens : List Token) : Option Node :=
  match tokens with
  | [] => some .empty
  | t :: _ =>
    if isOutside t && t != .documentEnd then
      match readDirectives false [] tokens with
      | some (handles, .documentStart :: rest) => readMarkedBody (handles ++ standardHandles) rest
      | _ => none
    else readBody standardHandles tokens

/-- The document in a text. -/
def Node.read (t : Text) : Option Node :=
  (Token.scan t).bind Node.ofTokens

end SetterReport.Yaml
