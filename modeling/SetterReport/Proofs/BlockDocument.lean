import SetterReport.Proofs.BlockText
import SetterReport.Proofs.LoadedKeys

/-!
# Reading documents in block style

The tokens of a block are parsed as its node, whatever tokens follow: by induction on the block,
with twice as much fuel as it has tokens, of which the reader has more.  The node is loaded as the
value of the block if every scalar in it can be resolved, the keys are strings and distinct, and
no more collections are nested than may be.  As a block has neither anchors nor tags, no table of
definitions has a part in that.

## Main results

* `read_documentText` — the text of a document is read as its node;
* `IsLoadable.read_value` — a text that is read as the node of a block has the value of the block.
-/

namespace SetterReport.Yaml

/-! ## Steps of the grammar -/

namespace Grammar

@[simp]
theorem run_peek (r : Reader) : peek.run r = some (r.tokens.head?, r) :=
  rfl

@[simp]
theorem run_skip (r : Reader) : skip.run r = some ((), { r with tokens := r.tokens.tail }) :=
  rfl

@[simp]
theorem run_sees (t : Token) (r : Reader) :
    (sees t).run r = some (r.tokens.head? == some t, r) :=
  rfl

@[simp]
theorem run_seesAny (ts : List Token) (r : Reader) :
    (seesAny ts).run r = some (r.tokens.head?.any ts.contains, r) :=
  rfl

/-- A token that stands before a node without properties. -/
def isPlainStart : Token → Bool
  | .aliasTo _ => false
  | .anchor _ => false
  | .tag .. => false
  | _ => true

theorem run_properties {t : Token} (ht : isPlainStart t = true) (rest : List Token)
    (anchors : List (Text × Nat)) (handles : List (Text × TagText)) :
    properties.run ⟨t :: rest, anchors, handles⟩ =
      some (⟨none, .none⟩, ⟨t :: rest, anchors, handles⟩) := by
  cases t <;> first | rfl | simp [isPlainStart] at ht

theorem run_node {t : Token} (ht : isPlainStart t = true) (rest : List Token)
    (anchors : List (Text × Nat)) (handles : List (Text × TagText)) (fuel : Nat) (place : Place) :
    (node (fuel + 1) place).run ⟨t :: rest, anchors, handles⟩ =
      (content fuel place ⟨none, .none⟩).run ⟨t :: rest, anchors, handles⟩ := by
  rw [node, StateT.run_bind, run_peek]
  have hproperties := run_properties ht rest anchors handles
  cases t with
  | aliasTo name => simp [isPlainStart] at ht
  | _ =>
      simp only [List.head?_cons, Option.bind_eq_bind, Option.bind_some, StateT.run_bind,
        hproperties]

section Content

variable (rest : List Token) (anchors : List (Text × Nat)) (handles : List (Text × TagText))
  (fuel : Nat)

theorem run_node_scalar (place : Place) (text : Text) (isPlain : Bool) :
    (node (fuel + 2) place).run ⟨.scalar text isPlain :: rest, anchors, handles⟩ =
      some (.scalar none .none text isPlain, ⟨rest, anchors, handles⟩) := by
  rw [run_node rfl, content]
  cases place with
  | flow => rfl
  | block allowsDashes => cases allowsDashes <;> rfl

theorem run_node_mapping (allowsDashes : Bool) :
    (node (fuel + 2) (.block allowsDashes)).run ⟨.blockMappingStart :: rest, anchors, handles⟩ =
      ((blockEntries fuel).run ⟨rest, anchors, handles⟩).map fun x =>
        (.mapping none .none x.1, x.2) := by
  rw [run_node rfl, content]
  cases allowsDashes <;> simp

theorem run_node_sequence (allowsDashes : Bool) :
    (node (fuel + 2) (.block allowsDashes)).run ⟨.blockSequenceStart :: rest, anchors, handles⟩ =
      ((blockItems fuel).run ⟨rest, anchors, handles⟩).map fun x =>
        (.sequence none .none x.1, x.2) := by
  rw [run_node rfl, content]
  cases allowsDashes <;> simp

end Content

/-- A part that is there is read. -/
theorem run_unlessAny {enders tokens : List Token}
    (hthere : tokens.head?.any enders.contains = false) (part : Grammar Node)
    (anchors : List (Text × Nat)) (handles : List (Text × TagText)) :
    (unlessAny enders part).run ⟨tokens, anchors, handles⟩ =
      part.run ⟨tokens, anchors, handles⟩ := by
  unfold unlessAny
  rw [StateT.run_bind, run_seesAny, hthere]
  rfl

theorem run_optionalValue (enders : List Token) (part : Grammar Node) (rest : List Token)
    (anchors : List (Text × Nat)) (handles : List (Text × TagText)) :
    (optionalValue enders part).run ⟨.value :: rest, anchors, handles⟩ =
      (unlessAny enders part).run ⟨rest, anchors, handles⟩ := by
  unfold optionalValue
  rw [StateT.run_bind, run_sees]
  rfl

end Grammar

namespace Block

open Grammar

/-! ## From tokens to nodes -/

mutual

/-- The node of a block. -/
def node : Block → Node
  | scalar s => .scalar none .none s.content s.isPlain
  | mapping entries => .mapping none .none (entriesNodes entries)
  | sequence items => .sequence none .none (itemsNodes items)
termination_by structural b => b

/-- The nodes of entries. -/
def entriesNodes : List (Text × Block) → List (Node × Node)
  | [] => []
  | (k, b) :: rest => (.scalar none .none k true, node b) :: entriesNodes rest
termination_by structural entries => entries

/-- The nodes of items. -/
def itemsNodes : List Block → List Node
  | [] => []
  | b :: rest => node b :: itemsNodes rest
termination_by structural items => items

end

/-- A block is parsed as its node, with twice as much fuel as it has tokens. -/
def IsParsed (b : Block) : Prop :=
  ∀ fuel allowsDashes rest anchors handles, 2 * b.tokens.length ≤ fuel →
    (Grammar.node fuel (.block allowsDashes)).run ⟨b.tokens ++ rest, anchors, handles⟩ =
      some (b.node, ⟨rest, anchors, handles⟩)

/-- The tokens of a block do not start with one that stands for a part left out. -/
theorem head?_tokens_append (b : Block) (rest : List Token) {enders : List Token}
    (henders : enders ⊆ [Token.key, .value, .blockEnd, .blockEntry]) :
    (b.tokens ++ rest).head?.any enders.contains = false := by
  have hother : ∀ t : Token, t ∉ [Token.key, .value, .blockEnd, .blockEntry] →
      enders.contains t = false := by
    intro t ht
    simpa using fun hmem => ht (henders hmem)
  cases b with
  | scalar s => exact hother _ (by simp [Spelling.token])
  | mapping es => exact hother _ (by simp)
  | sequence bs => exact hother _ (by simp)

/-- The entries of a mapping are parsed up to its end. -/
theorem run_blockEntries {es : List (Text × Block)} (hparsed : ∀ e ∈ es, IsParsed e.2)
    {fuel : Nat} (hfuel : 2 * (entriesTokens es).length + 1 ≤ fuel) (rest : List Token)
    (anchors : List (Text × Nat)) (handles : List (Text × TagText)) :
    (blockEntries fuel).run ⟨entriesTokens es ++ .blockEnd :: rest, anchors, handles⟩ =
      some (entriesNodes es, ⟨rest, anchors, handles⟩) := by
  induction es generalizing fuel with
  | nil =>
      obtain ⟨fuel, rfl⟩ : ∃ n, fuel = n + 1 := ⟨fuel - 1, by omega⟩
      rfl
  | cons e es ih =>
      obtain ⟨key, b⟩ := e
      obtain ⟨hparsedHere, hparsedRest⟩ := List.forall_mem_cons.1 hparsed
      simp only [entriesTokens, List.length_cons, List.length_append] at hfuel
      -- An entry takes one step, and the node of its key two more.
      obtain ⟨fuel, rfl⟩ : ∃ n, fuel = n + 3 := ⟨fuel - 3, by omega⟩
      have hvalue : (Grammar.node (fuel + 2) (.block true)).run
          ⟨b.tokens ++ (entriesTokens es ++ .blockEnd :: rest), anchors, handles⟩ = _ :=
        hparsedHere (fuel + 2) true _ anchors handles (by simp only; omega)
      have hrest : (blockEntries (fuel + 2)).run
          ⟨entriesTokens es ++ .blockEnd :: rest, anchors, handles⟩ = _ :=
        ih hparsedRest (by omega)
      have hkeyThere : (Token.scalar key true :: .value :: (b.tokens ++
          (entriesTokens es ++ .blockEnd :: rest))).head?.any
          [Token.key, .value, .blockEnd].contains = false := by simp
      have hvalueThere := head?_tokens_append b (entriesTokens es ++ .blockEnd :: rest)
        (show [Token.key, .value, .blockEnd] ⊆ _ by simp)
      rw [blockEntries, StateT.run_bind, run_sees]
      simp only [entriesTokens, List.cons_append, List.append_assoc, List.head?_cons,
        Option.bind_eq_bind, Option.bind_some, beq_self_eq_true, if_true, StateT.run_bind,
        run_skip, List.tail_cons, run_unlessAny hkeyThere, run_node_scalar, run_optionalValue,
        run_unlessAny hvalueThere, hvalue, hrest, StateT.run_pure]
      rfl

/-- The items of a sequence are parsed up to its end. -/
theorem run_blockItems {bs : List Block} (hparsed : ∀ b ∈ bs, b.IsParsed) {fuel : Nat}
    (hfuel : 2 * (itemsTokens bs).length + 1 ≤ fuel) (rest : List Token)
    (anchors : List (Text × Nat)) (handles : List (Text × TagText)) :
    (blockItems fuel).run ⟨itemsTokens bs ++ .blockEnd :: rest, anchors, handles⟩ =
      some (itemsNodes bs, ⟨rest, anchors, handles⟩) := by
  induction bs generalizing fuel with
  | nil =>
      obtain ⟨fuel, rfl⟩ : ∃ n, fuel = n + 1 := ⟨fuel - 1, by omega⟩
      rfl
  | cons b bs ih =>
      obtain ⟨hparsedHere, hparsedRest⟩ := List.forall_mem_cons.1 hparsed
      simp only [itemsTokens, List.length_cons, List.length_append] at hfuel
      obtain ⟨fuel, rfl⟩ : ∃ n, fuel = n + 1 := ⟨fuel - 1, by omega⟩
      have hitem : (Grammar.node fuel (.block false)).run
          ⟨b.tokens ++ (itemsTokens bs ++ .blockEnd :: rest), anchors, handles⟩ = _ :=
        hparsedHere fuel false _ anchors handles (by omega)
      have hrest : (blockItems fuel).run
          ⟨itemsTokens bs ++ .blockEnd :: rest, anchors, handles⟩ = _ :=
        ih hparsedRest (by omega)
      have hthere := head?_tokens_append b (itemsTokens bs ++ .blockEnd :: rest)
        (show [Token.blockEntry, .blockEnd] ⊆ _ by simp)
      rw [blockItems, StateT.run_bind, run_sees]
      simp only [itemsTokens, List.cons_append, List.append_assoc, List.head?_cons,
        Option.bind_eq_bind, Option.bind_some, beq_self_eq_true, if_true, StateT.run_bind,
        run_skip, List.tail_cons, run_unlessAny hthere, hitem, hrest, StateT.run_pure]
      rfl

/-- Every block that can be written is parsed. -/
theorem IsWritable.isParsed {b : Block} (h : b.IsWritable) : b.IsParsed := by
  induction h with
  | scalar h =>
      rename_i s
      intro fuel allowsDashes rest anchors handles hfuel
      simp only [Block.tokens, List.length_cons, List.length_nil] at hfuel
      obtain ⟨fuel, rfl⟩ : ∃ n, fuel = n + 2 := ⟨fuel - 2, by omega⟩
      exact run_node_scalar rest anchors handles fuel _ _ _
  | mapping nonempty keys values ih =>
      rename_i es
      intro fuel allowsDashes rest anchors handles hfuel
      simp only [Block.tokens, List.length_cons, List.length_append, List.length_nil] at hfuel
      obtain ⟨fuel, rfl⟩ : ∃ n, fuel = n + 2 := ⟨fuel - 2, by omega⟩
      have hentries : (blockEntries fuel).run _ = _ :=
        run_blockEntries ih (by omega) rest anchors handles
      simp only [Block.tokens, List.cons_append, List.append_assoc, List.nil_append,
        run_node_mapping, hentries, Option.map_some, Block.node]
  | sequence nonempty inner ih =>
      rename_i bs
      intro fuel allowsDashes rest anchors handles hfuel
      simp only [Block.tokens, List.length_cons, List.length_append, List.length_nil] at hfuel
      obtain ⟨fuel, rfl⟩ : ∃ n, fuel = n + 2 := ⟨fuel - 2, by omega⟩
      have hitems : (blockItems fuel).run _ = _ :=
        run_blockItems ih (by omega) rest anchors handles
      simp only [Block.tokens, List.cons_append, List.append_assoc, List.nil_append,
        run_node_sequence, hitems, Option.map_some, Block.node]

/-- The text of a document is read as its node. -/
theorem read_documentText {es : List (Text × Block)} (h : (mapping es).IsWritable) :
    Node.read (documentText es) = some (mapping es).node := by
  have hparsed := h.isParsed (enoughFuel (mapping es).tokens) false [] [] standardHandles
    (by unfold enoughFuel; omega)
  have hbody : readBody standardHandles (mapping es).tokens = some (mapping es).node := by
    rw [List.append_nil] at hparsed
    unfold readBody
    rw [hparsed]
    rfl
  unfold Node.read
  rw [scan_documentText h]
  exact hbody

/-! ## From nodes to values -/

end Block

/-- The value of a scalar; none if it is refused. -/
def Spelling.value? : Spelling → Option Value
  | .plain t => Scalar.resolve t
  | .quoted t => some (.string t)

namespace Block

mutual

/-- The value of a block. -/
def value : Block → Value
  | scalar s => s.value?.getD .null
  | mapping entries => .mapping (entriesValues entries)
  | sequence items => .sequence (itemsValues items)
termination_by structural b => b

/-- The values of entries. -/
def entriesValues : List (Text × Block) → List (Value × Value)
  | [] => []
  | (k, b) :: rest => (.string k, value b) :: entriesValues rest
termination_by structural entries => entries

/-- The values of items. -/
def itemsValues : List Block → List Value
  | [] => []
  | b :: rest => value b :: itemsValues rest
termination_by structural items => items

end

theorem entriesValues_eq_map (es : List (Text × Block)) :
    entriesValues es = es.map fun e => (.string e.1, e.2.value) := by
  induction es with
  | nil => rfl
  | cons e es ih => rw [entriesValues, ih, List.map_cons]

theorem itemsValues_eq_map (bs : List Block) : itemsValues bs = bs.map value := by
  induction bs with
  | nil => rfl
  | cons b bs ih => rw [itemsValues, ih, List.map_cons]

/-- A block that can be loaded where so many collections may be nested: its scalars can be
resolved, and its keys are strings, no two of a mapping the same. -/
inductive IsLoadable : (depth : Nat) → Block → Prop
  | scalar {depth : Nat} {s : Spelling} (resolves : s.value?.isSome = true) :
      IsLoadable depth (scalar s)
  | mapping {depth : Nat} {entries : List (Text × Block)}
      (keys : ∀ e ∈ entries, Scalar.resolve e.1 = some (.string e.1))
      (distinct : (entries.map (·.1)).Nodup) (values : ∀ e ∈ entries, IsLoadable depth e.2) :
      IsLoadable (depth + 1) (mapping entries)
  | sequence {depth : Nat} {items : List Block} (inner : ∀ b ∈ items, IsLoadable depth b) :
      IsLoadable (depth + 1) (sequence items)

open Loading

theorem run_items {load : Node → Loading Value} {bs : List Block} {n : Nat}
    (hload : ∀ b ∈ bs, (load b.node).run n = some (b.value, n)) :
    (items load (itemsNodes bs)).run n = some (itemsValues bs, n) := by
  induction bs with
  | nil => rfl
  | cons b bs ih =>
      obtain ⟨hhere, hrest⟩ := List.forall_mem_cons.1 hload
      simp [itemsNodes, itemsValues, items, hhere, ih hrest]

theorem run_entries {loadKey loadValue : Node → Loading Value} {es : List (Text × Block)} {n : Nat}
    (hkeys : ∀ e ∈ es, (loadKey (.scalar none .none e.1 true)).run n = some (.string e.1, n))
    (hvalues : ∀ e ∈ es, (loadValue e.2.node).run n = some (e.2.value, n))
    {done : List (Value × Value)} (hdistinct : (es.map (·.1)).Nodup)
    (hnew : ∀ d ∈ done, ∀ e ∈ es, d.1.same (.string e.1) = false) :
    (entries loadKey loadValue done (entriesNodes es)).run n =
      some (done ++ entriesValues es, n) := by
  induction es generalizing done with
  | nil => simp [entriesNodes, entriesValues, entries]
  | cons e es ih =>
      obtain ⟨hkey, hkeysRest⟩ := List.forall_mem_cons.1 hkeys
      obtain ⟨hvalue, hvaluesRest⟩ := List.forall_mem_cons.1 hvalues
      obtain ⟨hother, hdistinctRest⟩ := List.nodup_cons.1 hdistinct
      have hadd : addEntry done (.string e.1) e.2.value =
          some (done ++ [(.string e.1, e.2.value)]) := by
        have hnone : (done.any fun d => d.1.same (.string e.1)) = false := by
          simpa using fun k v hd => hnew (k, v) hd e List.mem_cons_self
        simp [addEntry, hnone]
      -- The keys are distinct strings, so that none of them is refused as known.
      have hnewRest : ∀ d ∈ done ++ [(.string e.1, e.2.value)], ∀ f ∈ es,
          d.1.same (.string f.1) = false := by
        intro d hd f hf
        rcases List.mem_append.1 hd with hd | hd
        · exact hnew d hd f (List.mem_cons_of_mem _ hf)
        · obtain rfl := List.mem_singleton.1 hd
          have hne : e.1 ≠ f.1 := by
            intro hsame
            exact hother (List.mem_map.2 ⟨f, hf, hsame.symm⟩)
          simpa [Value.same] using hne
      have hrest := ih hkeysRest hvaluesRest hdistinctRest hnewRest
      simp [entriesNodes, entriesValues, entries, hkey, hvalue, hadd, hrest]

theorem run_scalar (context : LoadContext) (depth : Nat) {s : Spelling} {v : Value}
    (hv : s.value? = some v) (n : Nat) :
    (Loading.node context depth false (.scalar none .none s.content s.isPlain)).run n =
      some (v, n) := by
  have hscalar : Loading.scalar false .none s.content s.isPlain = some v := by
    cases s with
    | plain t => exact hv
    | quoted t => exact hv
  have hcontent : ∀ inner,
      (content inner false (.scalar none .none s.content s.isPlain)).run n = some (v, n) := by
    intro inner
    simp [content, hscalar]
  cases depth with
  | zero => exact hcontent none
  | succ depth => exact hcontent (some (Loading.node context depth))

/-- A block that can be loaded has its value. -/
theorem IsLoadable.run_node {depth : Nat} {b : Block} (h : b.IsLoadable depth)
    (context : LoadContext) (n : Nat) :
    (Loading.node context depth false b.node).run n = some (b.value, n) := by
  induction h with
  | scalar resolves =>
      obtain ⟨v, hv⟩ := Option.isSome_iff_exists.1 resolves
      rw [Block.node, run_scalar context _ hv, Block.value, hv]
      rfl
  | mapping keys distinct values ih =>
      rename_i depth es
      have hkeys : ∀ e ∈ es, (Loading.node context depth false (.scalar none .none e.1 true)).run n =
          some (.string e.1, n) :=
        fun e he => run_scalar context depth (s := .plain e.1) (keys e he) n
      have hentries := run_entries hkeys ih distinct (by simp : ∀ d ∈ ([] : List (Value × Value)), _)
      show (content (some (Loading.node context depth)) false (Block.mapping es).node).run n = _
      simp [Block.node, content, hentries, Block.value, withTag, nameOf, Tag.localName?]
  | sequence inner ih =>
      rename_i depth bs
      have hitems := run_items ih
      show (content (some (Loading.node context depth)) false (Block.sequence bs).node).run n = _
      simp [Block.node, content, hitems, Block.value, withTag, nameOf, Tag.localName?]

/-- A text that is read as the node of a block has the value of the block. -/
theorem IsLoadable.read_value {b : Block} (h : b.IsLoadable deepestNesting) {t : Text}
    (hread : Node.read t = some b.node) : Value.read t = some b.value := by
  unfold Value.read Value.ofNode
  simp only [hread, Option.bind_some, h.run_node, Option.map_some]

/-! ## Readable blocks -/

/-- Whether a text is fit for a key and means itself. -/
def isFieldKey (key : Text) : Bool :=
  LexState.isKey key &&
    match Scalar.resolve key with
    | some (.string _) => true
    | _ => false

mutual

/-- Whether a block can be written and loaded where so many collections may be nested. -/
def isReadable : Block → (depth : Nat) → Bool
  | scalar s, _ => s.isWritable && s.value?.isSome
  | mapping _, 0 => false
  | mapping entries, depth + 1 =>
    !entries.isEmpty && decide (entries.map (·.1)).Nodup && entriesReadable entries depth
  | sequence _, 0 => false
  | sequence items, depth + 1 => !items.isEmpty && itemsReadable items depth
termination_by structural b => b

/-- Whether entries can be written and loaded, apart from their keys being distinct. -/
def entriesReadable : List (Text × Block) → (depth : Nat) → Bool
  | [], _ => true
  | (k, b) :: rest, depth => isFieldKey k && isReadable b depth && entriesReadable rest depth
termination_by structural entries => entries

/-- Whether items can be written and loaded. -/
def itemsReadable : List Block → (depth : Nat) → Bool
  | [], _ => true
  | b :: rest, depth => isReadable b depth && itemsReadable rest depth
termination_by structural items => items

end

theorem entriesReadable_iff {es : List (Text × Block)} {depth : Nat} :
    entriesReadable es depth = true ↔
      ∀ e ∈ es, isFieldKey e.1 = true ∧ e.2.isReadable depth = true := by
  induction es with
  | nil => simp [entriesReadable]
  | cons e es ih => simp [entriesReadable, ih]

theorem itemsReadable_iff {bs : List Block} {depth : Nat} :
    itemsReadable bs depth = true ↔ ∀ b ∈ bs, b.isReadable depth = true := by
  induction bs with
  | nil => simp [itemsReadable]
  | cons b bs ih => simp [itemsReadable, ih]

theorem isReadable_mapping_iff {es : List (Text × Block)} {depth : Nat} :
    (mapping es).isReadable depth = true ↔ ∃ inner, depth = inner + 1 ∧ es ≠ [] ∧
      (es.map (·.1)).Nodup ∧ ∀ e ∈ es, isFieldKey e.1 = true ∧ e.2.isReadable inner = true := by
  cases depth with
  | zero => simp [isReadable]
  | succ depth => simp [isReadable, entriesReadable_iff, and_assoc]

theorem isReadable_sequence_iff {bs : List Block} {depth : Nat} :
    (sequence bs).isReadable depth = true ↔ ∃ inner, depth = inner + 1 ∧ bs ≠ [] ∧
      ∀ b ∈ bs, b.isReadable inner = true := by
  cases depth with
  | zero => simp [isReadable]
  | succ depth => simp [isReadable, itemsReadable_iff]

theorem resolve_of_isFieldKey {key : Text} (h : isFieldKey key = true) :
    Scalar.resolve key = some (.string key) := by
  unfold isFieldKey at h
  rw [Bool.and_eq_true] at h
  obtain ⟨-, h⟩ := h
  split at h
  · rename_i t ht
    rcases Scalar.resolve_cases ht with ⟨hv, -⟩ | ⟨_, hv, -⟩ | ⟨_, hv, -⟩ | ⟨_, hv, -⟩ | hv
    · simp at hv
    · simp at hv
    · simp at hv
    · simp at hv
    · rwa [hv] at ht
  · simp at h

/-- A block that is readable can be written and loaded. -/
theorem isWritable_and_isLoadable {b : Block} {depth : Nat} (h : b.isReadable depth = true) :
    b.IsWritable ∧ b.IsLoadable depth := by
  -- What is nested in a block is readable at a smaller depth.
  induction depth generalizing b with
  | zero =>
      cases b with
      | scalar s =>
          simp only [isReadable, Bool.and_eq_true] at h
          exact ⟨.scalar h.1, .scalar h.2⟩
      | mapping es => simp [isReadable] at h
      | sequence bs => simp [isReadable] at h
  | succ depth ih =>
      cases b with
      | scalar s =>
          simp only [isReadable, Bool.and_eq_true] at h
          exact ⟨.scalar h.1, .scalar h.2⟩
      | mapping es =>
          obtain ⟨_, hdepth, hnonempty, hdistinct, hentries⟩ := isReadable_mapping_iff.1 h
          obtain rfl := Nat.succ.inj hdepth
          have hkeys : ∀ e ∈ es, LexState.isKey e.1 = true := by
            intro e he
            have hkey := (hentries e he).1
            simp only [isFieldKey, Bool.and_eq_true] at hkey
            exact hkey.1
          exact ⟨.mapping hnonempty hkeys fun e he => (ih (hentries e he).2).1,
            .mapping (fun e he => resolve_of_isFieldKey (hentries e he).1) hdistinct
              fun e he => (ih (hentries e he).2).2⟩
      | sequence bs =>
          obtain ⟨_, hdepth, hnonempty, hitems⟩ := isReadable_sequence_iff.1 h
          obtain rfl := Nat.succ.inj hdepth
          exact ⟨.sequence hnonempty fun b hb => (ih (hitems b hb)).1,
            .sequence fun b hb => (ih (hitems b hb)).2⟩

end Block

end SetterReport.Yaml
