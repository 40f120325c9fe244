import SetterReport.Proofs.PackageOrder

/-!
# The order of a walk

A walk compares names within one directory only.  Still the ways to the things that it meets
ascend in the lexicographic order (`spotsAt_ascend`): a directory comes before what is below
it, and everything below an entry comes before the next entry, whatever the names further down
are.  So the paths that a walk meets ascend component by component, as they would after sorting
(`visitsAt_ascend`), though as texts they need not: `a/x` is met before `a-b`.

The marker files are those of the things met that have the marker's name and are no directories.
A link is met like a file and not entered, so a link with the marker's name is listed, and
what lies behind a link is not.

## Main result

* `markerFiles_listed` — at a root that is a directory and no link the marker files are the
  marker entries that names lead to, each once, in the order of their paths.
-/

namespace SetterReport

/-- Paths below a root are in the lexicographic order of the names that lead to them. -/
theorem Path.key_joinAll_lt (root : Path) {a b : List Text} (ha : ∀ n ∈ a, IsBare n)
    (hb : ∀ n ∈ b, IsBare n) (h : a < b) : (root.joinAll a).key < (root.joinAll b).key := by
  have hways := Package.strictMono_wayKey root h
  unfold Path.key
  rw [components_joinAll root ha, components_joinAll root hb]
  exact hways

namespace FileTree

/-- A walk meets its paths in ascending order. -/
theorem visitsAt_ascend (closed : Trail → Bool) (root : Path) (around : Trail) {t : FileTree}
    (hsound : t.IsSound) :
    (visitsAt closed root around t).Pairwise fun v w => v.path.key < w.path.key := by
  rw [visitsAt_eq, List.pairwise_map]
  refine (spotsAt_ascend closed around hsound).imp_of_mem ?_
  intro s s' hs hs' hlt
  exact Path.key_joinAll_lt root (isBare_of_mem_spotsAt hsound hs)
    (isBare_of_mem_spotsAt hsound hs') hlt

end FileTree

namespace Package

open FileTree

/-- Paths at and below a root, listed once each and in ascending order. -/
structure IsOrderedListing (root : Path) (isListed : List Text → Prop) (files : List Path) :
    Prop where
  /-- The paths are those at the ways that are to be listed, none of them twice. -/
  exists_ways : ∃ ways : List (List Text), files = ways.map root.joinAll ∧ ways.Nodup ∧
    ∀ names, names ∈ ways ↔ isListed names
  ascend : files.Pairwise fun p q => p.key < q.key
  /-- To sort the paths changes nothing. -/
  sorted : Path.sorted files = files

/-- At a directory the marker files are the markers among the visits below it. -/
theorem markerFiles_eq_below {tree : FileTree} {root : Path} {es : Entries} {around : Trail}
    (hlocate : tree.locate root = .ok (.directory (es :: around)))
    (hroot : ¬tree.IsLinkAt root) (marker : Text) :
    let below := inNameOrder (spotsIn (fun _ => false) (es :: around) es)
    markerFiles tree root marker =
      .ok (((below.map (Spot.visit root)).filter (isMarker marker)).map Visit.path) := by
  intro below
  obtain ⟨first, -, hfirst, hfiles⟩ := markerFiles_eq hlocate marker
  have hdirectory : first.node.isDirectory = true := hfirst.resolve_right hroot
  have hnotMarker : ¬isMarker marker first = true := by simp [isMarker, hdirectory]
  rw [hfiles, List.filter_cons_of_neg hnotMarker]

/-- At a root that is a directory and no link, the marker files are found.  They are the entries
with the marker's name that are no directories, links among them, to which a way leads from the
root that enters no link.  Each is listed once, and the paths ascend component by component, so
that they are in sorted order as they stand. -/
theorem markerFiles_listed {tree : FileTree} (hsound : tree.IsSound) {root : Path} {es : Entries}
    {around : Trail} (hlocate : tree.locate root = .ok (.directory (es :: around)))
    (hroot : ¬tree.IsLinkAt root) (marker : Text) :
    ∃ files, markerFiles tree root marker = .ok files ∧
      IsOrderedListing root (LeadsToMarker marker es) files := by
  have hsoundHere := hsound.of_locate hlocate
  let below := inNameOrder (spotsIn (fun _ => false) (es :: around) es)
  let files := ((below.map (Spot.visit root)).filter (isMarker marker)).map Visit.path
  let ways := (below.filter fun s => isMarker marker (s.visit root)).map Spot.names
  have hways : files = ways.map root.joinAll := by
    simp only [files, ways, List.filter_map, List.map_map]
    rfl
  have hascend : files.Pairwise fun p q => p.key < q.key := by
    have hwalk := visitsAt_ascend (fun _ => false) root around hsoundHere
    rw [visitsAt_eq, spotsAt, List.map_cons] at hwalk
    exact List.pairwise_map.2 ((List.pairwise_cons.1 hwalk).2.filter _)
  refine ⟨files, markerFiles_eq_below hlocate hroot marker, ⟨ways, hways, ?_, ?_⟩, hascend,
    Path.sorted_of_pairwise hascend⟩
  · have hdifferent : files.Nodup := hascend.imp fun hlt hsame => hlt.ne (congrArg Path.key hsame)
    rw [hways] at hdifferent
    exact hdifferent.of_map
  · intro names
    rw [← exists_isMarker_iff hsoundHere around root marker, List.mem_map]
    simp only [List.mem_filter, and_assoc]
    rfl

/-- A directory with two markers below it, one of them a link that leads nowhere, and with a
directory that has the marker's name. -/
def markedTwice : Entries :=
  [("x".toList, .directory [("Krmfile".toList, .link "missing".toList)]),
    ("Krmfile".toList, .directory markedEntries)]

/-- A link to a directory has the marker's name, another one has not; and the name of one
directory continues that of its neighbour with a character that comes before the slash. -/
def linkedTree : FileTree :=
  .directory [("behind".toList, .link "a".toList), ("a-b".toList, .directory markedEntries),
    ("a".toList, .directory markedTwice), ("Krmfile".toList, .link "a".toList)]

/-- The general statement at this tree. -/
theorem markerFiles_listed_links :
    linkedTree.IsSound ∧
      linkedTree.locate ⟨['.']⟩ = .ok (.directory [linkedTree.entries]) ∧
      ¬linkedTree.IsLinkAt ⟨['.']⟩ ∧
      markerFiles linkedTree ⟨['.']⟩ "Krmfile".toList =
        .ok [⟨"./Krmfile".toList⟩, ⟨"./a/Krmfile/Krmfile".toList⟩, ⟨"./a/x/Krmfile".toList⟩,
          ⟨"./a-b/Krmfile".toList⟩] ∧
      IsOrderedListing ⟨['.']⟩ (LeadsToMarker "Krmfile".toList linkedTree.entries)
        [⟨"./Krmfile".toList⟩, ⟨"./a/Krmfile/Krmfile".toList⟩, ⟨"./a/x/Krmfile".toList⟩,
          ⟨"./a-b/Krmfile".toList⟩] := by
  have hsound : linkedTree.IsSound := by decide +kernel
  have hlocate : linkedTree.locate ⟨['.']⟩ = .ok (.directory [linkedTree.entries]) := by rfl
  have hroot : ¬linkedTree.IsLinkAt ⟨['.']⟩ := by
    have hfollow : follow false [linkedTree.entries] ['.'] =
        .ok (.directory [linkedTree.entries]) := by rfl
    exact not_isLinkAt hfollow
  have hfiles : markerFiles linkedTree ⟨['.']⟩ "Krmfile".toList =
      .ok [⟨"./Krmfile".toList⟩, ⟨"./a/Krmfile/Krmfile".toList⟩, ⟨"./a/x/Krmfile".toList⟩,
        ⟨"./a-b/Krmfile".toList⟩] := by
    decide +kernel
  obtain ⟨files, hfound, hlisting⟩ := markerFiles_listed hsound hlocate hroot "Krmfile".toList
  obtain rfl := Except.ok.inj (hfiles.symm.trans hfound)
  exact ⟨hsound, hlocate, hroot, hfiles, hlisting⟩

end Package

end SetterReport
