import SetterReport.Proofs.TreeDescent

/-!
# Following paths

`enter` goes from a directory through the moves of a path as far as they lead
into directories.  Path resolution agrees with it wherever no link is met: the
steps that `enter` takes can be cut off the front (`walkLinks_append`), and in a
tree without links every directory that a path leads to is reached by `enter`
(`follow_eq_directory_iff`).  So what a path leads to depends on its moves only,
and on its spelling being one that can be opened at all.
-/

namespace SetterReport.FileTree

open SetterReport.Path (isIdle moves)

/-! ## Trails -/

/-- A place in a tree all of whose nodes satisfy `p`: the directories around it,
of which there is at least one. -/
structure IsTrail (p : FileTree → Bool) (trail : Trail) : Prop where
  ne_nil : trail ≠ []
  all : ∀ es ∈ trail, (directory es).allNodes p = true

theorem IsTrail.outward {p : FileTree → Bool} {trail : Trail} (h : IsTrail p trail) :
    IsTrail p (outward trail) := by
  match trail, h with
  | [], h => exact h
  | [top], h => exact h
  | _ :: outer :: rest, h =>
      exact ⟨by simp [FileTree.outward], fun es hes => h.all es (List.mem_cons_of_mem _ hes)⟩

theorem IsTrail.child {p : FileTree → Bool} {trail : Trail} (h : IsTrail p trail)
    {name : Text} {node : FileTree} (hchild : child? name (trail.headD []) = some node) :
    node.allNodes p = true := by
  match trail, h with
  | [], h => exact absurd rfl h.ne_nil
  | es :: rest, h => exact allNodes_child (t := directory es) (h.all es (by simp)) hchild

theorem IsTrail.push {p : FileTree → Bool} {trail : Trail} (h : IsTrail p trail)
    {name : Text} {es : Entries}
    (hchild : child? name (trail.headD []) = some (directory es)) :
    IsTrail p (es :: trail) := by
  refine ⟨by simp, ?_⟩
  intro inner hinner
  rcases List.mem_cons.1 hinner with rfl | hinner
  · exact h.child hchild
  · exact h.all inner hinner

theorem IsTrail.start {p : FileTree → Bool} {trail : Trail} (h : IsTrail p trail)
    (spelling : Text) : IsTrail p (start trail spelling) := by
  unfold FileTree.start
  split
  · cases hlast : trail.getLast? with
    | none => exact absurd (List.getLast?_eq_none_iff.1 hlast) h.ne_nil
    | some top =>
        refine ⟨by simp, ?_⟩
        intro es hes
        obtain rfl : es = top := by simpa using hes
        exact h.all es (List.mem_of_getLast? hlast)
  · exact h

theorem IsTrail.top {p : FileTree → Bool} {tree : FileTree} (h : tree.allNodes p = true)
    (hempty : p (directory []) = true) : IsTrail p [tree.entries] := by
  refine ⟨by simp, ?_⟩
  intro es hes
  obtain rfl : es = tree.entries := by simpa using hes
  cases tree with
  | directory es => exact h
  | file content => simpa [allNodes, allNodesIn, entries] using hempty
  | link target => simpa [allNodes, allNodesIn, entries] using hempty

theorem IsSound.isTrail {tree : FileTree} (h : tree.IsSound) :
    IsTrail hasProperEntries [tree.entries] :=
  IsTrail.top h (by decide)

theorem IsLinkFree.isTrail {tree : FileTree} (h : tree.IsLinkFree) :
    IsTrail isNoLink [tree.entries] :=
  IsTrail.top h rfl

/-- Steps lead from a trail to a trail, if links do. -/
theorem IsTrail.walkSteps {p : FileTree → Bool} {followLast : Bool}
    {onLink : Trail → List Text → Except Fault Place}
    (hlink : ∀ trail steps trail', IsTrail p trail →
      onLink trail steps = .ok (.directory trail') → IsTrail p trail')
    {steps : List Text} {trail trail' : Trail} (h : IsTrail p trail)
    (hwalk : walkSteps onLink followLast trail steps = .ok (.directory trail')) :
    IsTrail p trail' := by
  induction steps generalizing trail with
  | nil =>
      obtain rfl : trail = trail' := by simpa [FileTree.walkSteps] using hwalk
      exact h
  | cons step rest ih =>
      unfold FileTree.walkSteps at hwalk
      split at hwalk
      · exact ih h hwalk
      · split at hwalk
        · exact ih h.outward hwalk
        · split at hwalk
          · simp at hwalk
          · split at hwalk
            · simp at hwalk
            · exact ih (h.push ‹_›) hwalk
            · split at hwalk <;> simp at hwalk
            · split at hwalk
              · simp at hwalk
              · exact hlink _ _ _ (h.start _) hwalk

theorem IsTrail.walkLinks {p : FileTree → Bool} {followLast : Bool} {links : Nat}
    {steps : List Text} {trail trail' : Trail} (h : IsTrail p trail)
    (hwalk : walkLinks followLast links trail steps = .ok (.directory trail')) :
    IsTrail p trail' := by
  induction links generalizing trail steps trail' with
  | zero => exact h.walkSteps (fun _ _ _ _ hlink => by simp at hlink) hwalk
  | succ links ih =>
      exact h.walkSteps (fun _ _ _ htrail hlink => ih htrail hlink) hwalk

theorem IsTrail.follow {p : FileTree → Bool} {followLast : Bool} {trail trail' : Trail}
    {spelling : Text} (h : IsTrail p trail)
    (hfollow : follow followLast trail spelling = .ok (.directory trail')) :
    IsTrail p trail' := by
  unfold FileTree.follow at hfollow
  split at hfollow
  · simp at hfollow
  · split at hfollow
    · simp at hfollow
    · split at hfollow
      · simp at hfollow
      · exact (h.start spelling).walkLinks hfollow

/-- A directory of a sound tree is sound. -/
theorem IsSound.of_locate {tree : FileTree} (h : tree.IsSound) {path : Path} {es : Entries}
    {around : Trail} (hlocate : tree.locate path = .ok (.directory (es :: around))) :
    (directory es).IsSound :=
  (h.isTrail.follow hlocate).all es (by simp)

theorem IsLinkFree.of_locate {tree : FileTree} (h : tree.IsLinkFree) {path : Path}
    {es : Entries} {around : Trail}
    (hlocate : tree.locate path = .ok (.directory (es :: around))) :
    (directory es).IsLinkFree :=
  (h.isTrail.follow hlocate).all es (by simp)

/-! ## The last link -/

/-- A way to a directory is the same if a link at its end is not followed, or it
ends at that link. -/
theorem walkSteps_noFollow {onLink onLink' : Trail → List Text → Except Fault Place}
    (hlink : ∀ trail steps trail', onLink trail steps = .ok (.directory trail') →
      onLink' trail steps = .ok (.directory trail') ∨
        ∃ around target, onLink' trail steps = .ok (.link around target))
    {steps : List Text} {trail trail' : Trail}
    (h : walkSteps onLink true trail steps = .ok (.directory trail')) :
    walkSteps onLink' false trail steps = .ok (.directory trail') ∨
      ∃ around target, walkSteps onLink' false trail steps = .ok (.link around target) := by
  induction steps generalizing trail with
  | nil => exact Or.inl h
  | cons step rest ih =>
      unfold walkSteps at h ⊢
      split at h
      · rw [if_pos ‹_›]
        exact ih h
      · rw [if_neg ‹_›]
        split at h
        · rw [if_pos ‹_›]
          exact ih h
        · rw [if_neg ‹_›]
          split at h
          · simp at h
          · rw [if_neg ‹_›]
            split at h
            · simp at h
            · rename_i es hchild
              exact ih h
            · split at h <;> simp at h
            · rename_i target hchild
              split
              · exact Or.inr ⟨_, _, rfl⟩
              · simp only [Bool.not_true, Bool.and_false, Bool.false_eq_true, if_false] at h
                exact hlink _ _ _ h

theorem walkLinks_noFollow {links : Nat} {steps : List Text} {trail trail' : Trail}
    (h : walkLinks true links trail steps = .ok (.directory trail')) :
    walkLinks false links trail steps = .ok (.directory trail') ∨
      ∃ around target, walkLinks false links trail steps = .ok (.link around target) := by
  induction links generalizing steps trail trail' with
  | zero => exact walkSteps_noFollow (fun _ _ _ hlink => by simp at hlink) h
  | succ links ih => exact walkSteps_noFollow (fun _ _ _ hlink => ih hlink) h

/-! ## Entering directories -/

/-- Goes from a trail through moves, into directories only. -/
def enter : Trail → List Text → Option Trail
  | trail, [] => some trail
  | trail, move :: rest =>
    if move == ['.', '.'] then enter (outward trail) rest
    else if longestName < move.utf8Length then none
    else
      match child? move (trail.headD []) with
      | some (directory es) => enter (es :: trail) rest
      | _ => none

/-- The moves of steps: those that lead somewhere. -/
abbrev movesOf (steps : List Text) : List Text :=
  steps.filter fun s => !isIdle s

theorem enter_append (trail : Trail) (a b : List Text) :
    enter trail (a ++ b) = (enter trail a).bind (enter · b) := by
  induction a generalizing trail with
  | nil => rfl
  | cons move a ih =>
      simp only [List.cons_append, enter]
      split
      · exact ih _
      · split
        · rfl
        · split
          · exact ih _
          · rfl

/-- Steps that lead into directories can be cut off the front. -/
theorem walkSteps_append {onLink : Trail → List Text → Except Fault Place}
    {followLast : Bool} {a : List Text} {trail trail' : Trail}
    (h : enter trail (movesOf a) = some trail') (b : List Text) :
    walkSteps onLink followLast trail (a ++ b) = walkSteps onLink followLast trail' b := by
  induction a generalizing trail with
  | nil =>
      obtain rfl : trail = trail' := by simpa [enter] using h
      rfl
  | cons step a ih =>
      simp only [List.cons_append, walkSteps]
      cases hidle : isIdle step with
      | true =>
          simp only [movesOf, List.filter_cons, hidle, Bool.not_true, Bool.false_eq_true,
            if_false] at h
          simpa using ih h
      | false =>
          simp only [movesOf, List.filter_cons, hidle, Bool.not_false, if_true, enter] at h
          simp only [Bool.false_eq_true, if_false]
          split at h
          · rw [if_pos ‹_›]
            exact ih h
          · rw [if_neg ‹_›]
            split at h
            · simp at h
            · rw [if_neg ‹_›]
              split at h
              · rename_i es hchild
                simp only [hchild]
                exact ih h
              · simp at h

theorem walkLinks_append {followLast : Bool} {links : Nat} {a : List Text}
    {trail trail' : Trail} (h : enter trail (movesOf a) = some trail') (b : List Text) :
    walkLinks followLast links trail (a ++ b) = walkLinks followLast links trail' b := by
  cases links with
  | zero => exact walkSteps_append h b
  | succ links => exact walkSteps_append h b

/-- In a tree without links a directory is only reached by entering it. -/
theorem enter_of_walkSteps {onLink : Trail → List Text → Except Fault Place}
    {followLast : Bool} {steps : List Text} {trail trail' : Trail}
    (hfree : IsTrail isNoLink trail)
    (h : walkSteps onLink followLast trail steps = .ok (.directory trail')) :
    enter trail (movesOf steps) = some trail' := by
  induction steps generalizing trail with
  | nil =>
      obtain rfl : trail = trail' := by simpa [walkSteps] using h
      rfl
  | cons step rest ih =>
      unfold walkSteps at h
      cases hidle : isIdle step with
      | true =>
          rw [if_pos hidle] at h
          simpa [movesOf, hidle] using ih hfree h
      | false =>
          rw [if_neg (by simp [hidle])] at h
          simp only [movesOf, List.filter_cons, hidle, Bool.not_false, if_true, enter]
          split at h
          · rw [if_pos ‹_›]
            exact ih hfree.outward h
          · rw [if_neg ‹_›]
            split at h
            · simp at h
            · rw [if_neg ‹_›]
              split at h
              · simp at h
              · rename_i es hchild
                simp only [hchild]
                exact ih (hfree.push hchild) h
              · split at h <;> simp at h
              · rename_i target hchild
                exact absurd (hfree.child hchild) (by simp [allNodes, isNoLink])

/-- In a tree without links a file is reached by entering its directory. -/
theorem exists_enter_of_walkSteps {onLink : Trail → List Text → Except Fault Place}
    {followLast : Bool} {steps : List Text} {trail : Trail} {content : ByteArray}
    (hfree : IsTrail isNoLink trail)
    (h : walkSteps onLink followLast trail steps = .ok (.file content)) :
    ∃ front name trail', steps = front ++ [name] ∧ isIdle name = false ∧
      name ≠ ['.', '.'] ∧ enter trail (movesOf front) = some trail' ∧
      child? name (trail'.headD []) = some (file content) := by
  induction steps generalizing trail with
  | nil => simp [walkSteps] at h
  | cons step rest ih =>
      unfold walkSteps at h
      cases hidle : isIdle step with
      | true =>
          rw [if_pos hidle] at h
          obtain ⟨front, name, trail', rfl, hname⟩ := ih hfree h
          exact ⟨step :: front, name, trail', rfl, by simpa [movesOf, hidle] using hname⟩
      | false =>
          rw [if_neg (by simp [hidle])] at h
          split at h
          · rename_i hup
            obtain ⟨front, name, trail', rfl, hname⟩ := ih hfree.outward h
            refine ⟨step :: front, name, trail', rfl, ?_⟩
            simpa [movesOf, hidle, enter, hup] using hname
          · rename_i hup
            split at h
            · simp at h
            · rename_i hlong
              split at h
              · simp at h
              · rename_i es hchild
                obtain ⟨front, name, trail', rfl, hname⟩ := ih (hfree.push hchild) h
                refine ⟨step :: front, name, trail', rfl, ?_⟩
                simp only [movesOf, List.filter_cons, hidle, Bool.not_false, if_true, enter]
                rw [if_neg hup, if_neg hlong]
                simpa only [hchild] using hname
              · rename_i found hchild
                split at h
                · rename_i hrest
                  obtain rfl : found = content := by simpa using h
                  obtain rfl : rest = [] := by simpa using hrest
                  exact ⟨[], step, trail, rfl, hidle, by simpa using hup, rfl, hchild⟩
                · simp at h
              · rename_i target hchild
                exact absurd (hfree.child hchild) (by simp [allNodes, isNoLink])

/-! ## Paths from the top -/

/-- A spelling that can be opened at all. -/
structure IsOpenable (spelling : Text) : Prop where
  noZero : '\x00' ∉ spelling
  ne_nil : spelling ≠ []
  short : spelling.utf8Length < tooLongPath

private theorem utf8Length_append (a b : Text) :
    (a ++ b).utf8Length = a.utf8Length + b.utf8Length := by
  unfold Text.utf8Length
  induction a with
  | nil => simp
  | cons c a ih =>
      simp only [List.cons_append, List.foldr_cons]
      omega

/-- The beginning of a spelling that can be opened can be opened too. -/
theorem IsOpenable.of_isPrefix {a b : Text} (hb : IsOpenable b) (h : a <+: b) (ha : a ≠ []) :
    IsOpenable a := by
  obtain ⟨rest, rfl⟩ := h
  refine ⟨fun hzero => hb.noZero (List.mem_append_left _ hzero), ha, ?_⟩
  have hshort := hb.short
  rw [utf8Length_append] at hshort
  omega

theorem start_top (es : Entries) (spelling : Text) : start [es] spelling = [es] := by
  unfold start
  split <;> rfl

theorem follow_of_isOpenable {spelling : Text} (h : IsOpenable spelling) (followLast : Bool)
    (trail : Trail) : follow followLast trail spelling =
      walkLinks followLast linkLimit (start trail spelling) (Path.steps spelling) := by
  have hshort := h.short
  unfold follow
  rw [if_neg (by simpa using h.noZero), if_neg (by simpa using h.ne_nil), if_neg (by omega)]

theorem isOpenable_of_follow {spelling : Text} {followLast : Bool} {trail : Trail}
    {place : Place} (h : follow followLast trail spelling = .ok place) :
    IsOpenable spelling := by
  unfold follow at h
  split at h
  · simp at h
  · split at h
    · simp at h
    · split at h
      · simp at h
      · exact ⟨by simpa using ‹¬spelling.contains '\x00' = true›,
          by simpa using ‹¬spelling.isEmpty = true›, by omega⟩

theorem follow_noFollow {spelling : Text} {trail trail' : Trail}
    (h : follow true trail spelling = .ok (.directory trail')) :
    follow false trail spelling = .ok (.directory trail') ∨
      ∃ around target, follow false trail spelling = .ok (.link around target) := by
  have hopen := isOpenable_of_follow h
  rw [follow_of_isOpenable hopen] at h ⊢
  exact walkLinks_noFollow h

/-- Where a path leads to a directory, in a tree without links. -/
theorem follow_eq_directory_iff {tree : FileTree} (hfree : tree.IsLinkFree)
    (followLast : Bool) (spelling : Text) (trail : Trail) :
    follow followLast [tree.entries] spelling = .ok (.directory trail) ↔
      IsOpenable spelling ∧ enter [tree.entries] (moves spelling) = some trail := by
  constructor
  · intro h
    have hopen := isOpenable_of_follow h
    rw [follow_of_isOpenable hopen, start_top] at h
    exact ⟨hopen, enter_of_walkSteps hfree.isTrail h⟩
  · rintro ⟨hopen, henter⟩
    rw [follow_of_isOpenable hopen, start_top]
    have hcut : walkLinks followLast linkLimit [tree.entries] (Path.steps spelling ++ []) =
        walkLinks followLast linkLimit trail [] := walkLinks_append henter []
    rw [List.append_nil] at hcut
    exact hcut

/-- A path ends at a link. -/
def IsLinkAt (tree : FileTree) (path : Path) : Prop :=
  ∃ around target, follow false [tree.entries] path.spelling = .ok (.link around target)

theorem not_isLinkAt {tree : FileTree} {path : Path} {trail : Trail}
    (h : follow false [tree.entries] path.spelling = .ok (.directory trail)) :
    ¬tree.IsLinkAt path := by
  rintro ⟨around, target, hlink⟩
  rw [h] at hlink
  simp at hlink

/-- In a tree without links a directory is reached without following a last one. -/
theorem IsLinkFree.follow_of_locate {tree : FileTree} (hfree : tree.IsLinkFree) {path : Path}
    {trail : Trail} (h : tree.locate path = .ok (.directory trail)) :
    follow false [tree.entries] path.spelling = .ok (.directory trail) :=
  (follow_eq_directory_iff hfree false _ _).2 ((follow_eq_directory_iff hfree true _ _).1 h)

/-! ## Entering along names -/

/-- Entering along names is a descent that ends in a directory. -/
theorem enter_names_iff {around : Trail} {es : Entries} {names : List Text}
    (hnames : ∀ n ∈ names, IsEntryName n) (trail : Trail) :
    enter (es :: around) names = some trail ↔
      ∃ around' es', descend? around (directory es) names = some (around', directory es') ∧
        trail = es' :: around' := by
  induction names generalizing around es with
  | nil => simp [enter, descend?, eq_comm]
  | cons name names ih =>
      have hname := hnames name (by simp)
      have hup : (name == ['.', '.']) = false := by simpa using hname.bare.ne_up
      have hshort : ¬longestName < name.utf8Length := Nat.not_lt.2 hname.short
      simp only [enter, descend?, List.headD_cons, hup, Bool.false_eq_true, if_false,
        if_neg hshort]
      show _ ↔ ∃ around' es', (child? name es).bind _ = _ ∧ _
      have hrest : ∀ n ∈ names, IsEntryName n := fun n hn => hnames n (by simp [hn])
      cases hchild : child? name es with
      | none => simp
      | some node =>
          cases node with
          | directory inner => exact ih hrest
          | file content =>
              cases names <;> simp [descend?, entries, child?]
          | link target =>
              cases names <;> simp [descend?, entries, child?]

/-- A file that a path leads to lies in the directory that the path's parent
leads to, under the path's file name. -/
theorem follow_file_parent {tree : FileTree} (hfree : tree.IsLinkFree) {p : Path}
    {followLast : Bool} {content : ByteArray}
    (h : follow followLast [tree.entries] p.spelling = .ok (.file content)) :
    ∃ name d trail, p.fileName? = some name ∧ p.parent? = some d ∧
      d.spelling <+: p.spelling ∧ enter [tree.entries] (moves d.spelling) = some trail ∧
      child? name (trail.headD []) = some (file content) := by
  rw [follow_of_isOpenable (isOpenable_of_follow h), start_top] at h
  obtain ⟨front, name, trail, hsteps, hidle, hup, henter, hchild⟩ :=
    exists_enter_of_walkSteps hfree.isTrail h
  have hname : p.fileName? = some name := by
    unfold Path.fileName? Path.stepsBack
    unfold Path.steps at hsteps
    simp [hsteps, hidle, hup]
  obtain ⟨d, hparent, hbegins, -, hmoves⟩ := Path.exists_parent hname
  refine ⟨name, d, trail, hname, hparent, hbegins, ?_, hchild⟩
  have hfront : moves p.spelling = movesOf front ++ [name] := by
    unfold moves
    rw [hsteps]
    simp [hidle]
  rw [hfront] at hmoves
  rw [← List.append_cancel_right hmoves]
  exact henter

/-- A file in a directory is reached by its name joined to the directory's path. -/
theorem follow_join_file {tree : FileTree} {p : Path} {trail : Trail} {name : Text}
    {content : ByteArray} (henter : enter [tree.entries] (moves p.spelling) = some trail)
    (hname : IsEntryName name) (hopen : IsOpenable (p.join name).spelling)
    (hchild : child? name (trail.headD []) = some (file content)) (followLast : Bool) :
    follow followLast [tree.entries] (p.join name).spelling = .ok (.file content) := by
  obtain ⟨front, hsplit, hfront⟩ := Path.split_join p hname.bare
  have hsteps : Path.steps (p.join name).spelling = front ++ [name] := by
    unfold Path.steps
    rw [hsplit]
  have hmoves : movesOf front = moves p.spelling := by
    unfold moves Path.steps
    rcases hfront with hfront | hfront <;> simp [hfront]
  have hup : (name == ['.', '.']) = false := by simpa using hname.bare.ne_up
  have hshort : ¬longestName < name.utf8Length := Nat.not_lt.2 hname.short
  have hstep : ∀ onLink, walkSteps onLink followLast trail [name] = .ok (.file content) := by
    intro onLink
    simp only [walkSteps, hname.bare.not_idle, hup, Bool.false_eq_true, if_false,
      if_neg hshort, hchild, List.isEmpty_nil, if_true]
  rw [follow_of_isOpenable hopen, start_top, hsteps, walkLinks_append (hmoves ▸ henter)]
  exact hstep _

/-- Whether a name leads from a directory to a file depends on the entry of that
name only: it is a file, or a link behind which there is one. -/
theorem isFileFrom_iff (around : Trail) {es : Entries} {name : Text}
    (hbare : Path.IsBare name) (hsound : (directory es).IsSound) :
    isFileFrom (es :: around) name = true ↔
      (∃ content, child? name es = some (file content)) ∨
        ∃ target content, child? name es = some (link target) ∧
          behind (es :: around) target = .ok (.file content) := by
  have hsteps : Path.steps name = [name] := by
    unfold Path.steps
    rw [Path.split_of_isBare hbare]
  by_cases hname : IsEntryName name
  · have hlimit : longestName < tooLongPath := by decide
    have hopen : IsOpenable name :=
      ⟨hname.noZero, hbare.ne_nil, lt_of_le_of_lt hname.short hlimit⟩
    have hup : (name == ['.', '.']) = false := by simpa using hbare.ne_up
    have hshort : ¬longestName < name.utf8Length := Nat.not_lt.2 hname.short
    have hstart : start (es :: around) name = es :: around := by
      simp [start, hbare.not_absolute]
    have hfollow : follow true (es :: around) name =
        walkSteps (walkLinks true (linkLimit - 1)) true (es :: around) [name] := by
      rw [follow_of_isOpenable hopen, hstart, hsteps]
      rfl
    unfold isFileFrom
    rw [hfollow]
    simp only [walkSteps, hbare.not_idle, hup, Bool.false_eq_true, if_false, if_neg hshort,
      List.headD_cons, List.isEmpty_nil, if_true, Bool.not_true, Bool.and_false,
      List.append_nil]
    cases hchild : child? name es with
    | none => simp
    | some node =>
        cases node with
        | file content => simp
        | directory inner => simp
        | link target =>
            have hbehind : walkLinks true (linkLimit - 1) (start (es :: around) target)
                (Path.steps target) = behind (es :: around) target := rfl
            simp only [hbehind]
            cases hplace : behind (es :: around) target with
            | error fault => simp [hplace]
            | ok place => cases place <;> simp [hplace]
  · have hnone : child? name es = none := by
      cases hchild : child? name es with
      | none => rfl
      | some node => exact absurd (hsound.isEntryName (t := directory es) hchild) hname
    have hnot : isFileFrom (es :: around) name = false := by
      unfold isFileFrom
      split
      · rename_i content hfollow
        have hopen := isOpenable_of_follow hfollow
        have hlong : longestName < name.utf8Length := by
          by_contra hshort
          exact hname ⟨hbare, hopen.noZero, Nat.not_lt.1 hshort⟩
        have hup : (name == ['.', '.']) = false := by simpa using hbare.ne_up
        rw [follow_of_isOpenable hopen, hsteps] at hfollow
        have hfault : walkSteps (walkLinks true (linkLimit - 1)) true
            (start (es :: around) name) [name] = .error .nameTooLong := by
          simp only [walkSteps, hbare.not_idle, hup, Bool.false_eq_true, if_false,
            if_pos hlong]
        exact absurd (hfault.symm.trans hfollow) (by simp)
      · rfl
    simp [hnot, hnone]

end SetterReport.FileTree
