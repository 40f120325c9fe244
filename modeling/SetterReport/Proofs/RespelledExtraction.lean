import SetterReport.Proofs.PathSpelling
import SetterReport.Proofs.SetterCount

/-!
# Extraction under different names of one file

The path of a metadata file says where the file is, in which directory fields are counted, and
which name marks other packages.  Nothing of this depends on repeated slashes or on `.` steps
before the file name, so the same is extracted under all such spellings, with one exception.
The parent of a bare name is the empty path, and that leads nowhere; a walk from it meets
nothing and the fields of the working directory are not counted.

## Main result

* `extract_respelled` — what is extracted is the same for all spellings of a path, or fails in
  the same way, the counts under the bare name apart; those are zero.
-/

namespace SetterReport.FileTree

open SetterReport.Path (IsBare)

/-! ## Walks from two spellings of one directory -/

/-- Two visited things that differ at most in the way to them. -/
structure Visit.Alike (v w : Visit) : Prop where
  name : v.path.fileName? = w.path.fileName?
  node : v.node = w.node
  around : v.around = w.around

theorem alike_visitsAt {closed : Trail → Bool} {d e : Path} (hname : d.fileName? = e.fileName?)
    {around : Trail} {t : FileTree} (hsound : t.IsSound) :
    List.Forall₂ Visit.Alike (visitsAt closed d around t) (visitsAt closed e around t) := by
  rw [visitsAt_eq, visitsAt_eq, List.forall₂_map_left_iff, List.forall₂_map_right_iff,
    List.forall₂_same]
  intro s hs
  have hbare := isBare_of_mem_spotsAt hsound hs
  refine ⟨?_, rfl, rfl⟩
  by_cases hnil : s.names = []
  · simp only [Spot.visit, hnil, Path.joinAll_nil]
    exact hname
  · have hlast := List.getLast?_eq_some_getLast hnil
    rw [Usage.fileName?_visit d hbare hlast, Usage.fileName?_visit e hbare hlast]

theorem alike_visitsIn {closed : Trail → Bool} {d e : Path} (hname : d.fileName? = e.fileName?)
    {around : Trail} {es : Entries} (hsound : (directory es).IsSound) :
    List.Forall₂ Visit.Alike (inNameOrder (visitsIn closed d (es :: around) es))
      (inNameOrder (visitsIn closed e (es :: around) es)) := by
  have hall : List.Forall₂ Visit.Alike (visitsAt closed d around (directory es))
      (visitsAt closed e around (directory es)) := alike_visitsAt hname hsound
  rw [visitsAt, visitsAt, List.forall₂_cons] at hall
  exact hall.2

/-- Walks from two paths that lead to the same place meet the same things. -/
theorem visits_congr {tree : FileTree} (hsound : tree.IsSound) {d e : Path}
    (hname : d.fileName? = e.fileName?)
    (hfollow : ∀ followLast, follow followLast [tree.entries] d.spelling =
      follow followLast [tree.entries] e.spelling) (closed : Trail → Bool) :
    (∃ fault, tree.visits closed d = .error fault ∧ tree.visits closed e = .error fault) ∨
      ∃ vs ws, tree.visits closed d = .ok vs ∧ tree.visits closed e = .ok ws ∧
        List.Forall₂ Visit.Alike vs ws := by
  have halone : ∀ node around, Visit.Alike ⟨d, node, around⟩ ⟨e, node, around⟩ :=
    fun _ _ => ⟨hname, rfl, rfl⟩
  have htrail : ∀ {followLast trail}, follow followLast [tree.entries] d.spelling =
      .ok (.directory trail) → ∃ es around, trail = es :: around ∧ (directory es).IsSound := by
    intro followLast trail hplace
    have hsoundTrail := hsound.isTrail.follow hplace
    cases trail with
    | nil => exact absurd rfl hsoundTrail.ne_nil
    | cons es around => exact ⟨es, around, rfl, hsoundTrail.all es (by simp)⟩
  unfold visits
  rw [← hfollow false, ← hfollow true]
  cases hplace : follow false [tree.entries] d.spelling with
  | error fault => exact Or.inl ⟨fault, rfl, rfl⟩
  | ok place =>
      cases place with
      | file content => exact Or.inr ⟨_, _, rfl, rfl, List.Forall₂.cons (halone _ _) .nil⟩
      | directory trail =>
          obtain ⟨es, around, rfl, hsoundHere⟩ := htrail hplace
          exact Or.inr ⟨_, _, rfl, rfl, alike_visitsAt hname hsoundHere⟩
      | link around target =>
          cases hbehind : follow true [tree.entries] d.spelling with
          | error fault => exact Or.inl ⟨fault, rfl, rfl⟩
          | ok place =>
              cases place with
              | file content =>
                  exact Or.inr ⟨_, _, rfl, rfl, List.Forall₂.cons (halone _ _) .nil⟩
              | link around' target' =>
                  exact Or.inr ⟨_, _, rfl, rfl, List.Forall₂.cons (halone _ _) .nil⟩
              | directory trail =>
                  obtain ⟨es, outer, rfl, hsoundHere⟩ := htrail hbehind
                  exact Or.inr ⟨_, _, rfl, rfl,
                    List.Forall₂.cons (halone _ _) (alike_visitsIn hname hsoundHere)⟩

end SetterReport.FileTree

namespace SetterReport.Usage

open FileTree

theorem resourceContent?_congr {marker : Text} {v w : Visit} (h : v.Alike w) :
    resourceContent? marker v = resourceContent? marker w := by
  have hplace : v.place = w.place := by
    unfold Visit.place
    rw [h.node, h.around]
  unfold resourceContent? Path.extension?
  rw [hplace, h.name]

theorem names_referencesOf_congr {marker : Text} {v w : Visit} (h : v.Alike w) :
    (referencesOf marker v).names = (referencesOf marker w).names := by
  unfold referencesOf
  rw [resourceContent?_congr h]
  cases resourceContent? marker w with
  | none => rfl
  | some content => cases hdecode : decode content <;> simp only [hdecode]

theorem names_foldr_congr {marker : Text} {vs ws : List Visit}
    (h : List.Forall₂ Visit.Alike vs ws) :
    (vs.foldr (fun v found => referencesOf marker v ++ found) {}).names =
      (ws.foldr (fun v found => referencesOf marker v ++ found) {}).names := by
  induction h with
  | nil => rfl
  | cons hfirst _ ih => exact congrArg₂ (· ++ ·) (names_referencesOf_congr hfirst) ih

/-- What is collected from two paths that lead to the same place is the same. -/
theorem count_collect_congr {tree : FileTree} (hsound : tree.IsSound) {d e : Path}
    (hname : d.fileName? = e.fileName?)
    (hfollow : ∀ followLast, follow followLast [tree.entries] d.spelling =
      follow followLast [tree.entries] e.spelling) (marker : Text) :
    (collect tree d marker).count = (collect tree e marker).count := by
  have hnames : (collect tree d marker).names = (collect tree e marker).names := by
    unfold collect
    rcases visits_congr hsound hname hfollow (holdsMarker marker) with
      ⟨fault, hd, he⟩ | ⟨vs, ws, hd, he, halike⟩
    · rw [hd, he]
    · rw [hd, he]
      exact names_foldr_congr halike
  funext name
  unfold References.count
  rw [hnames]

/-- From the empty path nothing is collected. -/
theorem count_collect_nil (tree : FileTree) (marker name : Text) :
    (collect tree ⟨[]⟩ marker).count name = 0 := by
  rfl

theorem count_of_no_references (setter : Text) (substitutions : List Substitution) :
    count setter (fun _ => 0) substitutions = 0 := by
  simp [count]

end SetterReport.Usage

namespace SetterReport.Metadata

/-! ## Reading a file under two paths -/

/-- The path of a metadata file shows in messages only. -/
theorem parse_congr (p q content : Text) :
    (∃ r, parse p content = .ok r ∧ parse q content = .ok r) ∨
      ∃ f g, parse p content = .error f ∧ parse q content = .error g ∧ f.code = g.code := by
  unfold parse
  cases Yaml.Value.read content with
  | none => exact Or.inr ⟨_, _, rfl, rfl, rfl⟩
  | some v =>
      cases hvalue : ofValue v with
      | ok r => exact Or.inl ⟨r, by simp only [hvalue], by simp only [hvalue]⟩
      | error reason =>
          refine Or.inr ⟨.metadataRefused p (.misshapen reason),
            .metadataRefused q (.misshapen reason), ?_, ?_, rfl⟩
          · simp only [hvalue]
          · simp only [hvalue]

theorem code_ofFile (p q : Text) (fault : FileFault) :
    (Failure.ofFile p fault).code = (Failure.ofFile q fault).code := by
  unfold Failure.ofFile
  by_cases hmissing : fault.isMissing = true
  · rw [if_pos hmissing, if_pos hmissing]
    rfl
  · rw [if_neg hmissing, if_neg hmissing]
    rfl

/-- Two paths to one place are read alike. -/
theorem readFile_congr {tree : FileTree} {p q : Path} (hlocate : tree.locate p = tree.locate q) :
    (∃ r, readFile tree p = .ok r ∧ readFile tree q = .ok r) ∨
      ∃ f g, readFile tree p = .error f ∧ readFile tree q = .error g ∧ f.code = g.code := by
  have htext : tree.readText p = tree.readText q := by
    unfold FileTree.readText
    rw [hlocate]
  unfold readFile
  rw [htext]
  cases tree.readText q with
  | error fault => exact Or.inr ⟨_, _, rfl, rfl, code_ofFile _ _ _⟩
  | ok content => exact parse_congr p.spelling q.spelling content

end SetterReport.Metadata

namespace SetterReport.Extraction

open FileTree Usage
open SetterReport.Path (IsBare isIdle moves)

/-! ## Extraction under two paths -/

/-- A path is spelled with a file name at its end. -/
structure EndsIn (file : Text) (p : Path) : Prop where
  bare : IsBare file
  ends : [file] <:+ Path.steps p.spelling

/-- Two paths are spelled with one file name at the end, and before it they differ in repeated
slashes and `.` steps only. -/
structure AreRespelled (file : Text) (p q : Path) : Prop where
  left : EndsIn file p
  right : EndsIn file q
  absolute_eq : Path.isAbsolute p.spelling = Path.isAbsolute q.spelling
  moves_eq : moves p.spelling = moves q.spelling

section EndsIn

variable {file : Text} {p : Path}

theorem EndsIn.endsInMove (h : EndsIn file p) : EndsInMove p.spelling := by
  obtain ⟨front, hsteps⟩ := h.ends
  exact Or.inr ⟨front, file, hsteps.symm, h.bare.not_idle⟩

theorem EndsIn.fileName?_eq (h : EndsIn file p) : p.fileName? = some file := by
  obtain ⟨front, hsteps⟩ := h.ends
  have hlast : (moves p.spelling).getLast? = some file := by
    unfold moves
    rw [← hsteps]
    simp [h.bare.not_idle]
  rw [Path.fileName?_eq, hlast]
  simp [Option.filter, h.bare.ne_up]

theorem EndsIn.markerOf_eq (h : EndsIn file p) : markerOf p = file := by
  simp [markerOf, h.fileName?_eq]

/-- The directory of a path: nothing idle stands at its end, it is a beginning of the path, and
the path leads on from it by the file name. -/
theorem EndsIn.directoryOf_spec (h : EndsIn file p) :
    EndsInMove (directoryOf p).spelling ∧ (directoryOf p).spelling <+: p.spelling ∧
      moves p.spelling = moves (directoryOf p).spelling ++ [file] := by
  obtain ⟨front, hsteps⟩ := h.ends
  have hparent := Path.parent?_of_steps hsteps.symm h.bare.not_idle
  obtain ⟨d, hd, hbegins, -, hmoves⟩ := Path.exists_parent h.fileName?_eq
  have hdirectory : directoryOf p = d := by simp [directoryOf, hd]
  rw [hdirectory]
  refine ⟨?_, hbegins, hmoves⟩
  rw [← Option.some.inj (hparent.symm.trans hd)]
  exact Path.endsInMove_spell ⟨[file], hsteps⟩

/-- Only the bare file name has the empty path as its directory. -/
theorem EndsIn.directoryOf_eq_nil_iff (h : EndsIn file p) :
    (directoryOf p).spelling = [] ↔ p.spelling = file := by
  obtain ⟨front, hsteps⟩ := h.ends
  have hparent := Path.parent?_of_steps hsteps.symm h.bare.not_idle
  rw [← Path.spell_eq_nil_iff h.bare hsteps.symm]
  simp [directoryOf, hparent]

/-- The directory of a path that can be opened and is no bare name can be opened too. -/
theorem EndsIn.isOpenable_directoryOf (h : EndsIn file p) (hopen : IsOpenable p.spelling)
    (hp : p.spelling ≠ file) : IsOpenable (directoryOf p).spelling := by
  apply hopen.of_isPrefix h.directoryOf_spec.2.1
  rw [Ne, h.directoryOf_eq_nil_iff]
  exact hp

/-- Under its bare name a file has no fields counted. -/
theorem EndsIn.count_eq_zero_of_bare (h : EndsIn file p) (hp : p.spelling = file)
    {tree : FileTree} {declared : Records} {name : Option Text} {s : Setter}
    (hs : s ∈ (extractFrom tree declared p name).records.setters) : s.count = 0 := by
  have hdirectory : directoryOf p = ⟨[]⟩ := congrArg Path.mk (h.directoryOf_eq_nil_iff.2 hp)
  have hnone : (collect tree (directoryOf p) (markerOf p)).count = fun _ => 0 := by
    funext n
    rw [hdirectory]
    exact count_collect_nil tree (markerOf p) n
  rw [count_of_mem_extractFrom hs, hnone]
  exact count_of_no_references _ _

end EndsIn

/-- Records whose counts are left out. -/
def uncounted (r : Records) : Records :=
  ⟨r.setters.map fun s => { s with count := 0 }, r.substitutions⟩

theorem uncounted_extractFrom (tree : FileTree) (declared : Records) (path : Path)
    (name : Option Text) :
    uncounted (extractFrom tree declared path name).records = uncounted (declared.named name) := by
  rw [records_extractFrom]
  unfold uncounted
  rw [List.map_map]
  rfl

theorem eq_of_uncounted_eq {a b : Records} (h : uncounted a = uncounted b)
    (ha : ∀ s ∈ a.setters, s.count = 0) (hb : ∀ s ∈ b.setters, s.count = 0) : a = b := by
  have hsame : ∀ r : Records, (∀ s ∈ r.setters, s.count = 0) → uncounted r = r := by
    intro r hr
    unfold uncounted
    rw [show r.setters.map (fun s => { s with count := 0 }) = r.setters from ?_]
    rw [List.map_congr_left (g := id) fun s hs => ?_, List.map_id]
    have hzero := hr s hs
    cases s
    simp_all
  rw [← hsame a ha, ← hsame b hb]
  exact h

theorem AreRespelled.locate_eq {file : Text} {p q : Path} (h : AreRespelled file p q)
    (hp : IsOpenable p.spelling) (hq : IsOpenable q.spelling) (tree : FileTree) :
    tree.locate p = tree.locate q :=
  follow_congr hp hq h.left.endsInMove h.right.endsInMove h.moves_eq true tree.entries

/-- Under two paths, neither of them a bare name, the same is extracted. -/
theorem AreRespelled.records_eq {file : Text} {p q : Path} (h : AreRespelled file p q)
    (hp : IsOpenable p.spelling) (hq : IsOpenable q.spelling) {tree : FileTree}
    (hsound : tree.IsSound) (hbareP : p.spelling ≠ file) (hbareQ : q.spelling ≠ file)
    (declared : Records) (name : Option Text) :
    (extractFrom tree declared p name).records = (extractFrom tree declared q name).records := by
  obtain ⟨hendP, -, hmovesP⟩ := h.left.directoryOf_spec
  obtain ⟨hendQ, -, hmovesQ⟩ := h.right.directoryOf_spec
  have hmoves : moves (directoryOf p).spelling = moves (directoryOf q).spelling := by
    have happended := h.moves_eq
    rw [hmovesP, hmovesQ] at happended
    exact List.append_cancel_right happended
  have hname : (directoryOf p).fileName? = (directoryOf q).fileName? := by
    rw [Path.fileName?_eq, Path.fileName?_eq, hmoves]
  have hfollow : ∀ followLast, follow followLast [tree.entries] (directoryOf p).spelling =
      follow followLast [tree.entries] (directoryOf q).spelling := fun followLast =>
    follow_congr (h.left.isOpenable_directoryOf hp hbareP)
      (h.right.isOpenable_directoryOf hq hbareQ) hendP hendQ hmoves followLast tree.entries
  rw [records_extractFrom, records_extractFrom, h.left.markerOf_eq, h.right.markerOf_eq,
    count_collect_congr hsound hname hfollow]

/-- Let two paths that can be opened be spelled with the same file name at the end, and before
it differ in repeated slashes and `.` steps only.  Then what is extracted for records that are
already known differs in counts at most.  It is the same if neither path is the bare name, and
under the bare name it is the same exactly if there is nothing to count.  Reading the records
from the file itself gives the same records under both paths, or fails in the same way. -/
theorem extract_respelled {tree : FileTree} (hsound : tree.IsSound) {file : Text} {p q : Path}
    (h : AreRespelled file p q) (hp : IsOpenable p.spelling) (hq : IsOpenable q.spelling)
    (name : Option Text) :
    let records := fun (declared : Records) (r : Path) =>
      (extractFrom tree declared r name).records
    (∀ declared, uncounted (records declared p) = uncounted (records declared q) ∧
      (p.spelling ≠ file → q.spelling ≠ file → records declared p = records declared q) ∧
      (p.spelling = file → (records declared p = records declared q ↔
        ∀ s ∈ (records declared q).setters, s.count = 0))) ∧
    ((∃ declared, extract tree p name = .ok (extractFrom tree declared p name) ∧
        extract tree q name = .ok (extractFrom tree declared q name)) ∨
      ∃ f g, extract tree p name = .error f ∧ extract tree q name = .error g ∧
        f.code = g.code) := by
  intro records
  constructor
  · intro declared
    have hcounts : uncounted (records declared p) = uncounted (records declared q) := by
      show uncounted (extractFrom tree declared p name).records =
        uncounted (extractFrom tree declared q name).records
      rw [uncounted_extractFrom, uncounted_extractFrom]
    refine ⟨hcounts, ?_, ?_⟩
    · intro hbareP hbareQ
      exact h.records_eq hp hq hsound hbareP hbareQ declared name
    · intro hbare
      have hzero : ∀ s ∈ (records declared p).setters, s.count = 0 := fun s hs =>
        h.left.count_eq_zero_of_bare hbare hs
      constructor
      · intro hsame
        rw [← hsame]
        exact hzero
      · intro hother
        exact eq_of_uncounted_eq hcounts hzero hother
  · have hread := Metadata.readFile_congr (h.locate_eq hp hq tree)
    unfold extract
    rcases hread with ⟨declared, hdeclaredP, hdeclaredQ⟩ | ⟨f, g, hf, hg, hcode⟩
    · left
      rw [hdeclaredP, hdeclaredQ]
      exact ⟨declared, rfl, rfl⟩
    · right
      rw [hf, hg]
      exact ⟨f, g, rfl, rfl, hcode⟩

/-- A metadata file that declares one setter. -/
def replicasFile : Text :=
  "openAPI:\n".toList ++
  "  definitions:\n".toList ++
  "    io.k8s.cli.setters.replicas:\n".toList ++
  "      x-k8s-cli:\n".toList ++
  "        setter:\n".toList ++
  "          value: 3\n".toList

/-- What the file declares. -/
def replicas : Records where
  setters := [{ name := "replicas".toList, value := "3".toList }]

/-- A working directory with this file and with one field, which refers to the setter. -/
def replicasTree : FileTree :=
  .directory [("Krmfile".toList, ofText replicasFile),
    ("deploy.yaml".toList, ofText "replicas: 3 # \x7b\"$openapi\":\"replicas\"\x7d\n".toList)]

theorem readFile_replicasTree {path : Path}
    (hlocate : replicasTree.locate path = .ok (.file (String.ofList replicasFile).toUTF8))
    (hparse : Metadata.parse path.spelling replicasFile = .ok replicas) :
    Metadata.readFile replicasTree path = .ok replicas := by
  rw [Metadata.readFile_of_locate hlocate]
  exact hparse

/-- The general statement at a path with repeated slashes and a `.` step in it. -/
theorem extract_respelled_dots :
    (∀ declared, (extractFrom replicasTree declared ⟨".//./Krmfile".toList⟩ none).records =
        (extractFrom replicasTree declared ⟨"./Krmfile".toList⟩ none).records) ∧
      ((∃ declared, extract replicasTree ⟨".//./Krmfile".toList⟩ none =
            .ok (extractFrom replicasTree declared ⟨".//./Krmfile".toList⟩ none) ∧
          extract replicasTree ⟨"./Krmfile".toList⟩ none =
            .ok (extractFrom replicasTree declared ⟨"./Krmfile".toList⟩ none)) ∨
        ∃ f g, extract replicasTree ⟨".//./Krmfile".toList⟩ none = .error f ∧
          extract replicasTree ⟨"./Krmfile".toList⟩ none = .error g ∧ f.code = g.code) := by
  have hspelled : AreRespelled "Krmfile".toList ⟨".//./Krmfile".toList⟩ ⟨"./Krmfile".toList⟩ :=
    ⟨⟨by decide +kernel, by decide +kernel⟩, ⟨by decide +kernel, by decide +kernel⟩,
      by decide +kernel, by decide +kernel⟩
  have hsound : replicasTree.IsSound := by decide +kernel
  have hrespelled := extract_respelled hsound hspelled
    ⟨by decide +kernel, by decide +kernel, by decide +kernel⟩
    ⟨by decide +kernel, by decide +kernel, by decide +kernel⟩ none
  refine ⟨fun declared => ?_, hrespelled.2⟩
  exact (hrespelled.1 declared).2.1 (by decide +kernel) (by decide +kernel)

/-- Under the bare name of the file its field is not counted, and under another spelling of the
path it is. -/
theorem bareName_counts_nothing :
    AreRespelled "Krmfile".toList ⟨"Krmfile".toList⟩ ⟨"./Krmfile".toList⟩ ∧
      ∃ e e', extract replicasTree ⟨"Krmfile".toList⟩ none = .ok e ∧
        extract replicasTree ⟨"./Krmfile".toList⟩ none = .ok e' ∧
        e.records.setters.map (·.count) = [0] ∧ e'.records.setters.map (·.count) = [1] := by
  have hspelled : AreRespelled "Krmfile".toList ⟨"Krmfile".toList⟩ ⟨"./Krmfile".toList⟩ :=
    ⟨⟨by decide +kernel, by decide +kernel⟩, ⟨by decide +kernel, by decide +kernel⟩,
      by decide +kernel, by decide +kernel⟩
  have hbare : Metadata.readFile replicasTree ⟨"Krmfile".toList⟩ = .ok replicas :=
    readFile_replicasTree rfl (by decide +kernel)
  have hdotted : Metadata.readFile replicasTree ⟨"./Krmfile".toList⟩ = .ok replicas :=
    readFile_replicasTree rfl (by decide +kernel)
  refine ⟨hspelled, _, _, extract_of_readFile hbare none, extract_of_readFile hdotted none,
    ?_, ?_⟩
  · decide +kernel
  · decide +kernel

end SetterReport.Extraction
