import Mathlib.Data.List.Nodup
import SetterReport.Proofs.WalkSpots

/-!
# Trees in the order of their names

`ordered` puts the entries of every directory of a tree in the order of their names.  Two
trees are *rearranged* from one another when they differ by permutations of the entries
within directories only, however deep.  As the names in a directory are distinct, rearranged
trees are the same once they are ordered (`Rearranged.ordered_eq`).

So what does not depend on the arrangement is what ordering the tree leaves as it is.  Here
this is shown for path resolution: a path leads to the same place of the ordered tree, in
directories that are ordered too (`follow_ordered`).  The step is one step of a path
(`walkSteps_ordered`), where all that is asked of a directory is the entry of a name
(`child?_orderedEntries`).
-/

namespace SetterReport.FileTree

/-! ## Rearranged trees -/

/-- Two trees differ by the order of the entries within directories only. -/
inductive Rearranged : FileTree → FileTree → Prop
  | refl (t : FileTree) : Rearranged t t
  | permute {es fs : Entries} (h : es.Perm fs) : Rearranged (directory es) (directory fs)
  | inside (before after : Entries) (name : Text) {t u : FileTree} (h : Rearranged t u) :
      Rearranged (directory (before ++ (name, t) :: after))
        (directory (before ++ (name, u) :: after))
  | trans {t u v : FileTree} (h : Rearranged t u) (h' : Rearranged u v) : Rearranged t v

/-! ## The order of names -/

/-- Lists with the same members, whose names are distinct, have the same order. -/
theorem sortBy_nameLe_congr {α : Type} {xs ys : List (Text × α)} (h : xs.Perm ys)
    (hdistinct : (xs.map (·.1)).Nodup) : Text.sortBy nameLe xs = Text.sortBy nameLe ys := by
  have hperm : (Text.sortBy nameLe xs).Perm (Text.sortBy nameLe ys) :=
    (Text.sortBy_perm nameLe xs).trans (h.trans (Text.sortBy_perm nameLe ys).symm)
  refine List.Perm.eq_of_pairwise ?_ (sortBy_nameLe_pairwise xs) (sortBy_nameLe_pairwise ys) hperm
  intro a b ha hb hab hba
  have hname : a.1 = b.1 := le_antisymm hab hba
  have ha' : a ∈ xs := (Text.sortBy_perm nameLe xs).mem_iff.1 ha
  have hb' : b ∈ xs := h.mem_iff.2 ((Text.sortBy_perm nameLe ys).mem_iff.1 hb)
  exact List.inj_on_of_nodup_map hdistinct ha' hb' hname

/-! ## Ordering -/

mutual

/-- The tree with the entries of all directories in the order of their names. -/
def ordered : FileTree → FileTree
  | directory es => directory (Text.sortBy nameLe (orderedIn es))
  | file content => file content
  | link target => link target
termination_by structural t => t

/-- Entries, each with its node ordered. -/
def orderedIn : List (Text × FileTree) → List (Text × FileTree)
  | [] => []
  | (name, node) :: rest => (name, ordered node) :: orderedIn rest
termination_by structural es => es

end

/-- The entries of an ordered directory. -/
def orderedEntries (es : Entries) : Entries :=
  Text.sortBy nameLe (orderedIn es)

theorem orderedIn_eq (es : Entries) : orderedIn es = es.map fun e => (e.1, e.2.ordered) := by
  induction es with
  | nil => rfl
  | cons e rest ih => rw [orderedIn, ih]; rfl

theorem ordered_directory (es : Entries) :
    (directory es).ordered = directory (orderedEntries es) := by
  rw [ordered]
  rfl

theorem entries_ordered (t : FileTree) : t.ordered.entries = orderedEntries t.entries := by
  cases t with
  | directory es => rw [ordered_directory]; rfl
  | file content => rfl
  | link target => rfl

@[simp] theorem isDirectory_ordered (t : FileTree) : t.ordered.isDirectory = t.isDirectory := by
  cases t with
  | directory es => rw [ordered_directory]; rfl
  | file content => rfl
  | link target => rfl

theorem orderedEntries_perm (es : Entries) :
    (orderedEntries es).Perm (es.map fun e => (e.1, e.2.ordered)) := by
  rw [← orderedIn_eq]
  exact Text.sortBy_perm nameLe (orderedIn es)

theorem names_orderedEntries_perm (es : Entries) :
    ((orderedEntries es).map (·.1)).Perm (es.map (·.1)) := by
  have hnames := (orderedEntries_perm es).map (·.1)
  rwa [List.map_map] at hnames

/-- The entry of a name is the ordered one of that name. -/
theorem child?_orderedEntries {es : Entries} (hdistinct : (es.map (·.1)).Nodup) (name : Text) :
    child? name (orderedEntries es) = (child? name es).map ordered := by
  have hmem : ∀ node, (name, node) ∈ orderedEntries es ↔
      ∃ e ∈ es, (e.1, e.2.ordered) = (name, node) :=
    fun node => (orderedEntries_perm es).mem_iff.trans List.mem_map
  cases hchild : child? name es with
  | none =>
      refine Option.eq_none_iff_forall_ne_some.2 ?_
      intro node hnode
      obtain ⟨e, he, hsame⟩ := (hmem node).1 (mem_of_child? hnode)
      obtain ⟨rfl, -⟩ := Prod.mk.inj hsame
      simp [child?_of_mem hdistinct he] at hchild
  | some node =>
      have hdistinct' : ((orderedEntries es).map (·.1)).Nodup :=
        (names_orderedEntries_perm es).nodup_iff.2 hdistinct
      apply child?_of_mem hdistinct'
      exact (hmem _).2 ⟨(name, node), mem_of_child? hchild, rfl⟩

/-- The ordered entries in the order of their names are the entries in that order, each of
them ordered. -/
theorem sortBy_orderedEntries {es : Entries} (hdistinct : (es.map (·.1)).Nodup) :
    Text.sortBy nameLe (orderedEntries es) =
      (Text.sortBy nameLe es).map fun e => (e.1, e.2.ordered) := by
  have hkeep : ∀ a b : Text × FileTree,
      nameLe (a.1, a.2.ordered) (b.1, b.2.ordered) = nameLe a b := fun _ _ => rfl
  rw [← Text.sortBy_map (fun e : Text × FileTree => (e.1, e.2.ordered)) hkeep, ← orderedIn_eq]
  apply sortBy_nameLe_congr (Text.sortBy_perm nameLe (orderedIn es))
  exact (names_orderedEntries_perm es).nodup_iff.2 hdistinct

/-! ## Rearranged trees have one order -/

theorem Rearranged.names {t u : FileTree} (h : Rearranged t u) :
    (t.entries.map (·.1)).Perm (u.entries.map (·.1)) := by
  induction h with
  | refl t => exact List.Perm.refl _
  | permute h => exact h.map _
  | inside before after name h ih => simp [entries]
  | trans _ _ ih ih' => exact ih.trans ih'

theorem hasProperEntries_congr {t u : FileTree}
    (h : (t.entries.map (·.1)).Perm (u.entries.map (·.1))) :
    hasProperEntries t = hasProperEntries u := by
  unfold hasProperEntries
  rw [decide_eq_decide, h.nodup_iff]
  simp only [h.mem_iff]

/-- A tree that is rearranged from a sound one is sound. -/
theorem Rearranged.isSound {t u : FileTree} (h : Rearranged t u) (ht : t.IsSound) :
    u.IsSound := by
  induction h with
  | refl t => exact ht
  | trans _ _ ih ih' => exact ih' (ih ht)
  | permute h =>
      obtain ⟨hproper, hall⟩ := (allNodes_directory _ _).1 ht
      refine (allNodes_directory _ _).2 ⟨?_, ?_⟩
      · rwa [← hasProperEntries_congr (Rearranged.permute h).names]
      · intro e he
        exact hall e (h.mem_iff.2 he)
  | inside before after name h ih =>
      obtain ⟨hproper, hall⟩ := (allNodes_directory _ _).1 ht
      refine (allNodes_directory _ _).2 ⟨?_, ?_⟩
      · rwa [← hasProperEntries_congr (h.inside before after name).names]
      · intro e he
        rcases List.mem_append.1 he with he | he
        · exact hall e (List.mem_append_left _ he)
        · rcases List.mem_cons.1 he with rfl | he
          · exact ih (hall (name, _) (by simp))
          · exact hall e (by simp [he])

/-- Rearranged trees are the same once they are ordered. -/
theorem Rearranged.ordered_eq {t u : FileTree} (h : Rearranged t u) (ht : t.IsSound) :
    t.ordered = u.ordered := by
  induction h with
  | refl t => rfl
  | trans h _ ih ih' => exact (ih ht).trans (ih' (h.isSound ht))
  | @permute es fs h =>
      -- without distinct names the sort would keep entries of one name as they are listed
      have hdistinct : ((orderedIn es).map (·.1)).Nodup := by
        rw [orderedIn_eq, List.map_map]
        exact ht.proper.1
      have hperm : (orderedIn es).Perm (orderedIn fs) := by
        rw [orderedIn_eq, orderedIn_eq]
        exact h.map _
      rw [ordered_directory, ordered_directory]
      exact congrArg directory (sortBy_nameLe_congr hperm hdistinct)
  | @inside before after name t u h ih =>
      have hnode : t.IsSound :=
        ((allNodes_directory _ _).1 ht).2 (name, t) (by simp)
      rw [ordered_directory, ordered_directory]
      unfold orderedEntries
      rw [orderedIn_eq, orderedIn_eq]
      simp only [List.map_append, List.map_cons, ih hnode]

/-! ## Path resolution -/

/-- The trail with the entries of its directories ordered. -/
def orderedTrail (trail : Trail) : Trail :=
  trail.map orderedEntries

/-- The place in the ordered tree. -/
def Place.ordered : Place → Place
  | .file content => .file content
  | .directory trail => .directory (orderedTrail trail)
  | .link around target => .link (orderedTrail around) target

theorem outward_orderedTrail (trail : Trail) :
    outward (orderedTrail trail) = orderedTrail (outward trail) := by
  match trail with
  | [] => rfl
  | [top] => rfl
  | _ :: _ :: _ => rfl

theorem start_orderedTrail (trail : Trail) (spelling : Text) :
    start (orderedTrail trail) spelling = orderedTrail (start trail spelling) := by
  unfold start
  split
  · unfold orderedTrail
    rw [List.getLast?_map]
    cases trail.getLast? <;> rfl
  · rfl

theorem IsTrail.distinct {trail : Trail} (h : IsTrail hasProperEntries trail) :
    ((trail.headD []).map (·.1)).Nodup := by
  match trail, h with
  | [], h => exact absurd rfl h.ne_nil
  | es :: rest, h => exact IsSound.proper (t := directory es) (h.all es (by simp)) |>.1

theorem child?_orderedTrail {trail : Trail} (h : IsTrail hasProperEntries trail) (name : Text) :
    child? name ((orderedTrail trail).headD []) = (child? name (trail.headD [])).map ordered := by
  match trail, h with
  | [], h => exact absurd rfl h.ne_nil
  | es :: rest, h => exact child?_orderedEntries h.distinct name

/-- The directories around a place are sound. -/
def Place.IsSound : Place → Prop
  | .file _ => True
  | .directory trail => IsTrail hasProperEntries trail
  | .link around _ => IsTrail hasProperEntries around

/-- A path leads to a sound place of the tree and to that place of the ordered tree, or it
fails alike in both. -/
structure LeadsAlike (found foundOrdered : Except Fault Place) : Prop where
  ordered : foundOrdered = found.map Place.ordered
  isSound : ∀ place, found = .ok place → place.IsSound

theorem LeadsAlike.error (fault : Fault) : LeadsAlike (.error fault) (.error fault) :=
  ⟨rfl, by simp⟩

theorem LeadsAlike.ok {place : Place} (h : place.IsSound) :
    LeadsAlike (.ok place) (.ok place.ordered) := by
  refine ⟨rfl, ?_⟩
  intro other hother
  obtain rfl := Except.ok.inj hother
  exact h

/-- Steps lead alike, if links do. -/
theorem walkSteps_ordered {onLink : Trail → List Text → Except Fault Place}
    (hlink : ∀ trail steps, IsTrail hasProperEntries trail →
      LeadsAlike (onLink trail steps) (onLink (orderedTrail trail) steps))
    (followLast : Bool) (steps : List Text) {trail : Trail}
    (h : IsTrail hasProperEntries trail) :
    LeadsAlike (walkSteps onLink followLast trail steps)
      (walkSteps onLink followLast (orderedTrail trail) steps) := by
  induction steps generalizing trail with
  | nil => exact LeadsAlike.ok h
  | cons step rest ih =>
      unfold walkSteps
      by_cases hidle : Path.isIdle step = true
      · rw [if_pos hidle, if_pos hidle]
        exact ih h
      · rw [if_neg hidle, if_neg hidle]
        by_cases hout : (step == ['.', '.']) = true
        · rw [if_pos hout, if_pos hout, outward_orderedTrail]
          exact ih h.outward
        · rw [if_neg hout, if_neg hout]
          by_cases hlong : longestName < step.utf8Length
          · rw [if_pos hlong, if_pos hlong]
            exact LeadsAlike.error _
          · rw [if_neg hlong, if_neg hlong, child?_orderedTrail h]
            cases hchild : child? step (trail.headD []) with
            | none => exact LeadsAlike.error _
            | some node =>
                cases node with
                | directory es => exact ih (h.push hchild)
                | file content =>
                    cases rest with
                    | nil => exact LeadsAlike.ok trivial
                    | cons => exact LeadsAlike.error _
                | link target =>
                    show LeadsAlike
                      (if rest.isEmpty && !followLast then .ok (.link trail target)
                        else onLink (start trail target) (Path.steps target ++ rest))
                      (if rest.isEmpty && !followLast then .ok (.link (orderedTrail trail) target)
                        else onLink (start (orderedTrail trail) target) (Path.steps target ++ rest))
                    split
                    · exact LeadsAlike.ok h
                    · rw [start_orderedTrail]
                      exact hlink _ _ (h.start target)

theorem walkLinks_ordered (followLast : Bool) (links : Nat) (steps : List Text) {trail : Trail}
    (h : IsTrail hasProperEntries trail) :
    LeadsAlike (walkLinks followLast links trail steps)
      (walkLinks followLast links (orderedTrail trail) steps) := by
  induction links generalizing trail steps with
  | zero => exact walkSteps_ordered (fun _ _ _ => LeadsAlike.error _) followLast steps h
  | succ links ih =>
      apply walkSteps_ordered _ followLast steps h
      intro trail steps h
      exact ih steps h

/-- A path leads to the same place of the ordered tree. -/
theorem follow_ordered (followLast : Bool) {trail : Trail}
    (h : IsTrail hasProperEntries trail) (spelling : Text) :
    LeadsAlike (follow followLast trail spelling)
      (follow followLast (orderedTrail trail) spelling) := by
  unfold follow
  split
  · exact LeadsAlike.error _
  · split
    · exact LeadsAlike.error _
    · split
      · exact LeadsAlike.error _
      · rw [start_orderedTrail]
        exact walkLinks_ordered followLast linkLimit (Path.steps spelling) (h.start spelling)

theorem behind_ordered {around : Trail} (h : IsTrail hasProperEntries around) (target : Text) :
    behind (orderedTrail around) target = (behind around target).map Place.ordered := by
  unfold behind
  rw [start_orderedTrail]
  exact (walkLinks_ordered true (linkLimit - 1) (Path.steps target) (h.start target)).ordered

theorem isFileFrom_ordered {trail : Trail} (h : IsTrail hasProperEntries trail)
    (spelling : Text) : isFileFrom (orderedTrail trail) spelling = isFileFrom trail spelling := by
  unfold isFileFrom
  rw [(follow_ordered true h spelling).ordered]
  cases follow true trail spelling with
  | error fault => rfl
  | ok place => cases place <;> rfl

/-- A path leads to the same place from the top of the ordered tree. -/
theorem follow_top_ordered {tree : FileTree} (h : tree.IsSound) (followLast : Bool)
    (spelling : Text) :
    LeadsAlike (follow followLast [tree.entries] spelling)
      (follow followLast [tree.ordered.entries] spelling) := by
  rw [entries_ordered]
  exact follow_ordered followLast h.isTrail spelling

theorem locate_ordered {tree : FileTree} (h : tree.IsSound) (path : Path) :
    tree.ordered.locate path = (tree.locate path).map Place.ordered :=
  (follow_top_ordered h true path.spelling).ordered

/-- The file at a path has the same text in the ordered tree. -/
theorem readText_ordered {tree : FileTree} (h : tree.IsSound) (path : Path) :
    tree.ordered.readText path = tree.readText path := by
  unfold readText
  rw [locate_ordered h]
  cases tree.locate path with
  | error fault => rfl
  | ok place => cases place <;> rfl

end SetterReport.FileTree
