import Mathlib.Data.List.Nodup
import SetterReport.FileTree.Edit
import SetterReport.Proofs.PathJoin

/-!
# Descending a file tree by names

`descend?` goes from a node to the node that some names lead to, and keeps the
directories around it.  It enters no link: a link is only ever the last node of
a descent.

`allNodes p` says that `p` holds of every node of a tree.  Two instances matter:
a *sound* tree, whose directories have distinct entries with names that a file
can have, and a tree *without links*.  Both are decided by running them, so a
concrete tree is sound by evaluation.
-/

namespace SetterReport.FileTree

/-! ## Properties of all nodes -/

mutual

/-- Whether `p` holds of a node and of all nodes below it. -/
def allNodes (p : FileTree → Bool) : FileTree → Bool
  | directory entries => p (directory entries) && allNodesIn p entries
  | file content => p (file content)
  | link target => p (link target)
termination_by structural tree => tree

/-- Whether `p` holds of all nodes at and below some entries. -/
def allNodesIn (p : FileTree → Bool) : List (Text × FileTree) → Bool
  | [] => true
  | (_, node) :: rest => allNodes p node && allNodesIn p rest
termination_by structural entries => entries

end

/-- Induction on a tree: a directory has the property if the nodes of all its
entries have it. -/
@[elab_as_elim] theorem byEntries {motive : FileTree → Prop}
    (file : ∀ content, motive (file content)) (link : ∀ target, motive (link target))
    (directory : ∀ entries : Entries, (∀ e ∈ entries, motive e.2) →
      motive (directory entries)) (t : FileTree) : motive t :=
  @FileTree.rec motive (fun entries => ∀ e ∈ entries, motive e.2) (fun e => motive e.2)
    file directory link (by simp)
    (fun e rest he hrest f hf => by
      rcases List.mem_cons.1 hf with rfl | hf
      · exact he
      · exact hrest f hf)
    (fun _ _ hnode => hnode) t

theorem allNodesIn_iff (p : FileTree → Bool) (es : Entries) :
    allNodesIn p es = true ↔ ∀ e ∈ es, e.2.allNodes p = true := by
  induction es with
  | nil => simp [allNodesIn]
  | cons e rest ih => simp [allNodesIn, ih]

theorem allNodes_directory (p : FileTree → Bool) (es : Entries) :
    (directory es).allNodes p = true ↔
      p (directory es) = true ∧ ∀ e ∈ es, e.2.allNodes p = true := by
  simp [allNodes, allNodesIn_iff]

theorem allNodes_self {p : FileTree → Bool} {t : FileTree} (h : t.allNodes p = true) :
    p t = true := by
  cases t with
  | file content => simpa [allNodes] using h
  | directory es => exact ((allNodes_directory p es).1 h).1
  | link target => simpa [allNodes] using h

/-! ## Sound trees and trees without links -/

/-- A name that a directory entry can have. -/
structure IsEntryName (name : Text) : Prop where
  bare : Path.IsBare name
  noZero : '\x00' ∉ name
  short : name.utf8Length ≤ longestName

instance (name : Text) : Decidable (IsEntryName name) :=
  decidable_of_iff (Path.IsBare name ∧ '\x00' ∉ name ∧ name.utf8Length ≤ longestName)
    ⟨fun ⟨hbare, hzero, hshort⟩ => ⟨hbare, hzero, hshort⟩,
      fun h => ⟨h.bare, h.noZero, h.short⟩⟩

/-- Whether the entries of a node, if it is a directory, have distinct names
that entries can have. -/
def hasProperEntries (t : FileTree) : Bool :=
  decide ((t.entries.map (·.1)).Nodup ∧ ∀ name ∈ t.entries.map (·.1), IsEntryName name)

/-- Whether a node is no link. -/
def isNoLink : FileTree → Bool
  | link _ => false
  | _ => true

/-- All directories have distinct entries with possible names. -/
def IsSound (t : FileTree) : Prop := t.allNodes hasProperEntries = true

/-- There is no link in the tree. -/
def IsLinkFree (t : FileTree) : Prop := t.allNodes isNoLink = true

instance (t : FileTree) : Decidable t.IsSound :=
  inferInstanceAs (Decidable (_ = _))

instance (t : FileTree) : Decidable t.IsLinkFree :=
  inferInstanceAs (Decidable (_ = _))

/-! ## Entries by name -/

theorem mem_of_child? {name : Text} {es : Entries} {node : FileTree}
    (h : child? name es = some node) : (name, node) ∈ es := by
  unfold child? at h
  obtain ⟨e, hfind, rfl⟩ := Option.map_eq_some_iff.1 h
  have hname : e.1 = name := by simpa using List.find?_some hfind
  rw [← hname]
  exact List.mem_of_find?_eq_some hfind

theorem child?_of_mem {name : Text} {es : Entries} {node : FileTree}
    (hdistinct : (es.map (·.1)).Nodup) (h : (name, node) ∈ es) :
    child? name es = some node := by
  induction es with
  | nil => simp at h
  | cons e rest ih =>
      simp only [List.map_cons, List.nodup_cons] at hdistinct
      rcases List.mem_cons.1 h with rfl | h
      · simp [child?]
      · have hne : e.1 ≠ name := by
          rintro rfl
          exact hdistinct.1 (List.mem_map.2 ⟨_, h, rfl⟩)
        have hrest := ih hdistinct.2 h
        unfold child? at hrest ⊢
        rwa [List.find?_cons_of_neg (by simpa using hne)]

theorem IsSound.proper {t : FileTree} (h : t.IsSound) :
    (t.entries.map (·.1)).Nodup ∧ ∀ name ∈ t.entries.map (·.1), IsEntryName name :=
  of_decide_eq_true (allNodes_self h)

theorem IsSound.child?_eq_some_iff {t : FileTree} (h : t.IsSound) {name : Text}
    {node : FileTree} : child? name t.entries = some node ↔ (name, node) ∈ t.entries :=
  ⟨mem_of_child?, child?_of_mem h.proper.1⟩

theorem IsSound.isEntryName {t : FileTree} (h : t.IsSound) {name : Text} {node : FileTree}
    (hchild : child? name t.entries = some node) : IsEntryName name :=
  h.proper.2 name (List.mem_map.2 ⟨_, mem_of_child? hchild, rfl⟩)

theorem allNodes_child {p : FileTree → Bool} {t : FileTree} (h : t.allNodes p = true)
    {name : Text} {node : FileTree} (hchild : child? name t.entries = some node) :
    node.allNodes p = true := by
  cases t with
  | file content => simp [entries, child?] at hchild
  | link target => simp [entries, child?] at hchild
  | directory es => exact ((allNodes_directory p es).1 h).2 _ (mem_of_child? hchild)

/-! ## Descent -/

/-- The node that names lead to from a node, and the directories around it. -/
def descend? : Trail → FileTree → List Text → Option (Trail × FileTree)
  | around, node, [] => some (around, node)
  | around, node, name :: rest =>
    (child? name node.entries).bind fun inner => descend? (node.entries :: around) inner rest

theorem descend?_append (around : Trail) (node : FileTree) (a b : List Text) :
    descend? around node (a ++ b) =
      (descend? around node a).bind fun place => descend? place.1 place.2 b := by
  induction a generalizing around node with
  | nil => rfl
  | cons name a ih =>
      simp only [List.cons_append, descend?]
      cases child? name node.entries with
      | none => rfl
      | some inner => exact ih _ inner

theorem below?_eq_descend? (around : Trail) (node : FileTree) (names : List Text) :
    node.below? names = (descend? around node names).map (·.2) := by
  induction names generalizing around node with
  | nil => rfl
  | cons name names ih =>
      simp only [below?, descend?]
      cases child? name node.entries with
      | none => rfl
      | some inner => exact ih _ inner

theorem below?_of_descend? {around around' : Trail} {node inner : FileTree} {names : List Text}
    (h : descend? around node names = some (around', inner)) :
    node.below? names = some inner := by
  rw [below?_eq_descend? around, h]
  rfl

theorem exists_descend? (around : Trail) {node inner : FileTree} {names : List Text}
    (h : node.below? names = some inner) :
    ∃ around', descend? around node names = some (around', inner) := by
  rw [below?_eq_descend? around] at h
  obtain ⟨⟨around', _⟩, hdescend, rfl⟩ := Option.map_eq_some_iff.1 h
  exact ⟨around', hdescend⟩

theorem below?_append (node : FileTree) (a b : List Text) :
    node.below? (a ++ b) = (node.below? a).bind (·.below? b) := by
  induction a generalizing node with
  | nil => rfl
  | cons name a ih =>
      simp only [List.cons_append, below?]
      cases child? name node.entries with
      | none => rfl
      | some inner => exact ih inner

/-- What lies below another node lies below a directory. -/
theorem below?_append_iff {node inner : FileTree} {a b : List Text} (hb : b ≠ []) :
    node.below? (a ++ b) = some inner ↔
      ∃ es, node.below? a = some (directory es) ∧ (directory es).below? b = some inner := by
  rw [below?_append]
  constructor
  · intro h
    obtain ⟨outer, houter, hinner⟩ := Option.bind_eq_some_iff.1 h
    cases outer with
    | directory es => exact ⟨es, houter, hinner⟩
    | file content =>
        cases b with
        | nil => exact absurd rfl hb
        | cons name b => simp [below?, entries, child?] at hinner
    | link target =>
        cases b with
        | nil => exact absurd rfl hb
        | cons name b => simp [below?, entries, child?] at hinner
  · rintro ⟨es, houter, hinner⟩
    rw [houter]
    exact hinner

@[simp] theorem below?_singleton (es : Entries) (name : Text) :
    (directory es).below? [name] = child? name es := by
  simp only [below?, entries]
  cases child? name es <;> rfl

/-- An entry lies below the directory that it is an entry of. -/
theorem below?_concat_iff {node inner : FileTree} {names : List Text} {name : Text} :
    node.below? (names ++ [name]) = some inner ↔
      ∃ es, node.below? names = some (directory es) ∧ child? name es = some inner := by
  simp only [below?_append_iff (List.cons_ne_nil name []), below?_singleton]

theorem descend?_concat_iff {around around' : Trail} {node inner : FileTree}
    {names : List Text} {name : Text} :
    descend? around node (names ++ [name]) = some (around', inner) ↔
      ∃ outer es, descend? around node names = some (outer, directory es) ∧
        child? name es = some inner ∧ around' = es :: outer := by
  rw [descend?_append]
  constructor
  · intro h
    obtain ⟨⟨outer, parent⟩, hparent, hlast⟩ := Option.bind_eq_some_iff.1 h
    obtain ⟨child, hchild, hend⟩ := Option.bind_eq_some_iff.1 hlast
    obtain ⟨rfl, rfl⟩ : parent.entries :: outer = around' ∧ child = inner := by
      simpa [descend?] using hend
    cases parent with
    | directory es => exact ⟨outer, es, hparent, hchild, rfl⟩
    | file content => simp [entries, child?] at hchild
    | link target => simp [entries, child?] at hchild
  · rintro ⟨outer, es, hparent, hchild, rfl⟩
    rw [hparent]
    show (child? name es).bind _ = _
    rw [hchild]
    rfl

theorem allNodes_below? {p : FileTree → Bool} {node inner : FileTree} {names : List Text}
    (h : node.allNodes p = true) (hbelow : node.below? names = some inner) :
    inner.allNodes p = true := by
  induction names generalizing node with
  | nil =>
      obtain rfl : node = inner := Option.some.inj hbelow
      exact h
  | cons name names ih =>
      obtain ⟨child, hchild, hrest⟩ := Option.bind_eq_some_iff.1 hbelow
      exact ih (allNodes_child h hchild) hrest

theorem IsSound.names_of_below? {node inner : FileTree} {names : List Text}
    (h : node.IsSound) (hbelow : node.below? names = some inner) :
    ∀ name ∈ names, IsEntryName name := by
  induction names generalizing node with
  | nil => simp
  | cons name names ih =>
      obtain ⟨child, hchild, hrest⟩ := Option.bind_eq_some_iff.1 hbelow
      intro m hm
      rcases List.mem_cons.1 hm with rfl | hm
      · exact h.isEntryName hchild
      · exact ih (allNodes_child h hchild) hrest m hm

/-! ## Files of text -/

/-- The file that holds a text. -/
def ofText (t : Text) : FileTree :=
  file (String.ofList t).toUTF8

/-- The bytes of a text are read back as that text. -/
theorem decode_ofList (t : Text) : decode (String.ofList t).toUTF8 = .ok t := by
  have hread : String.fromUTF8? (String.ofList t).toUTF8 = some (String.ofList t) := by
    unfold String.fromUTF8?
    rw [String.toUTF8_eq_toByteArray, dif_pos (String.ofList t).isValidUTF8]
    rfl
  unfold decode
  rw [hread]
  exact congrArg Except.ok String.toList_ofList

end SetterReport.FileTree
