import Mathlib.Data.List.Nodup
import Mathlib.Data.List.Perm.Basic
import SetterReport.CommandLine

/-!
# The order of the arguments

A command line for a report is made of parts: options, each in one of its spellings, and
operands.  Where the parts stand does not matter as long as the operands keep their order and
what stands before the subcommand may be given there.

A value is held back until the next thing comes, so a scanner is known by what it will have
settled to (`Scan.Stands`).  One part adds what it gives to that, at whatever level and whatever
was held back before it (`scan_part`), and so do parts one after the other (`scan_parts`).  What
a level gives is then what its options give and what its operands give, in some order
(`givenFrom_perm`), and the order is not seen by those who look a key up.

## Main result

* `parse_of_isArranged` — the parts of a request are read as the request in every arrangement.
-/

namespace SetterReport.CommandLine

open scoped List

/-! ## Parts of a command line -/

/-- A text that is read as an operand, or as the value of the option before it. -/
structure Operand where
  text : Text
  ne_nil : text ≠ []
  noDash : text.head? ≠ some '-'
deriving DecidableEq

/-- A part of a command line: an option, in one of its spellings, or an operand. -/
inductive Part
  | verbose (isShort : Bool)
  | markerName (file : Operand) (isJoined : Bool)
  | markdown
  | includeSubst
  | failOnEmpty
  | operand (o : Operand)
deriving DecidableEq

namespace Part

/-- The words of a part. -/
def words : Part → List Text
  | verbose true => ["-v".toList]
  | verbose false => ["--verbose".toList]
  | markerName file true => ["--openapi-file=".toList ++ file.text]
  | markerName file false => ["--openapi-file".toList, file.text]
  | markdown => ["--markdown".toList]
  | includeSubst => ["--include-subst".toList]
  | failOnEmpty => ["--fail-on-empty".toList]
  | operand o => [o.text]

/-- Whether the part may stand before the subcommand. -/
def isGlobal : Part → Bool
  | verbose _ => true
  | markerName .. => true
  | _ => false

/-- The operand that a part is. -/
def operand? : Part → Option Operand
  | operand o => some o
  | _ => none

/-- The key of an operand, by the number of operands before it. -/
def operandKey : Nat → Key
  | 0 => .dir
  | _ => .name

/-- What a part gives after some operands. -/
def given (n : Nat) : Part → Key × Text
  | verbose _ => (.verbose, [])
  | markerName file _ => (.markerName, file.text)
  | markdown => (.markdown, [])
  | includeSubst => (.includeSubst, [])
  | failOnEmpty => (.failOnEmpty, [])
  | operand o => (operandKey n, o.text)

/-- What an option gives. -/
def option? : Part → Option (Key × Text)
  | operand _ => none
  | p => some (p.given 0)

/-- The number of operands after a part. -/
def advance (n : Nat) (p : Part) : Nat :=
  n + p.operand?.toList.length

/-- What parts give after some operands. -/
def givenFrom : Nat → List Part → List (Key × Text)
  | _, [] => []
  | n, p :: rest => p.given n :: givenFrom (p.advance n) rest

/-- What operands give after some others. -/
def operandsFrom : Nat → List Operand → List (Key × Text)
  | _, [] => []
  | n, o :: rest => (operandKey n, o.text) :: operandsFrom (n + 1) rest

/-- What parts give is what the options give and what the operands give. -/
theorem givenFrom_perm (n : Nat) (ps : List Part) :
    (givenFrom n ps).Perm (ps.filterMap option? ++ operandsFrom n (ps.filterMap operand?)) := by
  induction ps generalizing n with
  | nil => exact .nil
  | cons p rest ih =>
      cases p with
      | operand o => exact ((ih (n + 1)).cons _).trans List.perm_middle.symm
      | _ => exact (ih n).cons _

end Part

/-! ## Scanning the parts -/

namespace Scan

/-- What the scanner will have settled to: what is given, and the number of operands. -/
def Stands (s : Scan) (given : List (Key × Text)) (n : Nat) : Prop :=
  s.settle = .ok ⟨given, none, false, n⟩

variable {level : Level} {s : Scan} {given : List (Key × Text)} {n : Nat} {key : Key}
  {value : Text}

theorem stands_settled (given : List (Key × Text)) (n : Nat) :
    Stands ⟨given, none, false, n⟩ given n := rfl

theorem give_new (hnew : key ∉ given.map Prod.fst) (hsuits : suits key value = true) :
    give ⟨given, none, false, n⟩ key value = .ok ⟨given ++ [(key, value)], none, false, n⟩ := by
  have hhas : has ⟨given, none, false, n⟩ key = false := by
    simpa [has, Bool.eq_false_iff] using hnew
  simp [give, hhas, hsuits]

/-- A scanner that stands somewhere is not waiting for a value, and has not seen a separator. -/
theorem Stands.facts (h : s.Stands given n) :
    s.isLiteral = false ∧ s.operands = n ∧ s.isWaiting = false := by
  obtain ⟨before, held, isLiteral, operands⟩ := s
  unfold Stands settle at h
  match held with
  | none =>
      obtain ⟨-, -, rfl, rfl⟩ := Scan.mk.inj (Except.ok.inj h)
      exact ⟨rfl, rfl, rfl⟩
  | some ⟨_, none⟩ => simp [refuse] at h
  | some ⟨key, some value⟩ =>
      simp only [give] at h
      split at h
      · simp [refuse] at h
      · split at h
        · obtain ⟨-, -, rfl, rfl⟩ := Scan.mk.inj (Except.ok.inj h)
          exact ⟨rfl, rfl, rfl⟩
        · simp [refuse] at h

/-- What is held back stands as if it had been given. -/
theorem stands_held (hnew : key ∉ given.map Prod.fst) (hsuits : suits key value = true) :
    Stands ⟨given, some ⟨key, some value⟩, false, n⟩ (given ++ [(key, value)]) n :=
  give_new hnew hsuits

theorem Stands.act_flag (h : s.Stands given n) (hnew : key ∉ given.map Prod.fst)
    (hsuits : suits key [] = true) :
    s.act level (.flag key) = .ok ⟨given ++ [(key, [])], none, false, n⟩ := by
  unfold Stands at h
  simp [act, h, Except.bind, give_new hnew hsuits]

theorem Stands.hold (h : s.Stands given n) (held : Held) :
    s.hold held = .ok ⟨given, some held, false, n⟩ := by
  unfold Stands at h
  simp [Scan.hold, h, Except.map]

end Scan

section Words

variable {level : Level} {s : Scan}

/-- A word with a dash in front names no subcommand. -/
theorem subcommand?_dash (level : Level) (s : Scan) (t : Text) :
    s.subcommand? level ('-' :: t) = none := by
  simp [Scan.subcommand?, Level.ofName?]

/-- A word that names no subcommand is read at its place. -/
theorem scan_cons {t : Text} (h : s.subcommand? level t = none) (rest : List Text) :
    scan level s (t :: rest) = (s.word level t).bind fun s => scan level s rest := by
  rw [scan, h]

theorem word_of_operand (o : Operand) : Word.of o.text = .plain := by
  have hdash := o.noDash
  cases htext : o.text with
  | nil => exact absurd htext o.ne_nil
  | cons c rest =>
      rw [htext] at hdash
      have hc : c ≠ '-' := by simpa using hdash
      unfold Word.of
      split <;> simp_all

variable {given : List (Key × Text)} {n : Nat}

/-- An option without a value gives its key. -/
theorem scan_flag {key : Key} {t : Text} (hs : s.Stands given n)
    (hword : s.word level ('-' :: t) = s.act level (.flag key))
    (hnew : key ∉ given.map Prod.fst) (hsuits : suits key [] = true) (rest : List Text) :
    scan level s (('-' :: t) :: rest) = scan level ⟨given ++ [(key, [])], none, false, n⟩ rest := by
  rw [scan_cons (subcommand?_dash level s t), hword, hs.act_flag hnew hsuits]
  rfl

/-- A value in the word of its option is given at once. -/
theorem scan_joined (hs : s.Stands given n) (hnew : .markerName ∉ given.map Prod.fst)
    (value : Text) (rest : List Text) :
    scan level s (("--openapi-file=".toList ++ value) :: rest) =
      scan level ⟨given ++ [(.markerName, value)], none, false, n⟩ rest := by
  have hgive : s.word level ("--openapi-file=".toList ++ value) =
      .ok ⟨given ++ [(.markerName, value)], none, false, n⟩ := by
    have hword : Word.of ("--openapi-file=".toList ++ value) =
        .long "openapi-file".toList (some value) := rfl
    have hsettle : s.settle = .ok ⟨given, none, false, n⟩ := hs
    simp only [Scan.word, hs.facts.1, hword]
    show (s.settle.bind fun s => s.give .markerName value) = _
    rw [hsettle]
    exact Scan.give_new hnew rfl
  have hnone : s.subcommand? level ("--openapi-file=".toList ++ value) = none :=
    subcommand?_dash level s _
  rw [scan_cons hnone, hgive]
  rfl

/-- A value in a word of its own is held back, even if it is the name of a subcommand. -/
theorem scan_separate (hs : s.Stands given n) (value : Operand) (rest : List Text) :
    scan level s ("--openapi-file".toList :: value.text :: rest) =
      scan level ⟨given, some ⟨.markerName, some value.text⟩, false, n⟩ rest := by
  have hfirst : s.word level "--openapi-file".toList =
      .ok ⟨given, some ⟨.markerName, none⟩, false, n⟩ := by
    simp only [Scan.word, hs.facts.1]
    exact hs.hold ⟨.markerName, none⟩
  have hsecond : Scan.word level ⟨given, some ⟨.markerName, none⟩, false, n⟩ value.text =
      .ok ⟨given, some ⟨.markerName, some value.text⟩, false, n⟩ := by
    simp [Scan.word, word_of_operand]
  have hnone : s.subcommand? level "--openapi-file".toList = none := subcommand?_dash level s _
  rw [scan_cons hnone, hfirst]
  show scan level ⟨given, some ⟨.markerName, none⟩, false, n⟩ (value.text :: rest) = _
  rw [scan_cons (by simp [Scan.subcommand?, Scan.isWaiting]), hsecond]
  rfl

/-- An operand is held back under the next key, even if it is the name of a subcommand. -/
theorem scan_operand (hs : s.Stands given n) (hn : n < 2) (o : Operand) (rest : List Text) :
    scan .listSetters s (o.text :: rest) =
      scan .listSetters ⟨given, some ⟨Part.operandKey n, some o.text⟩, false, n + 1⟩ rest := by
  obtain ⟨hliteral, hoperands, hwaiting⟩ := hs.facts
  have hkey : Level.listSetters.operands[s.operands]? = some (Part.operandKey n) := by
    rw [hoperands]
    match n, hn with
    | 0, _ => rfl
    | 1, _ => rfl
  have hread : s.operand .listSetters o.text =
      .ok ⟨given, some ⟨Part.operandKey n, some o.text⟩, false, n + 1⟩ := by
    simp [Scan.operand, hkey, hs.hold, Except.map]
  have hword : s.word .listSetters o.text = s.operand .listSetters o.text := by
    simp only [Scan.word, hliteral, word_of_operand, Bool.false_eq_true, if_false]
    split
    · rename_i key hheld
      simp [Scan.isWaiting, hheld] at hwaiting
    · rfl
  rw [scan_cons (by simp [Scan.subcommand?]), hword, hread]
  rfl

end Words

/-- Where a part may stand: at each level a global one, and otherwise after the subcommand; and
there are two operands at most. -/
structure Part.Fits (level : Level) (n : Nat) (p : Part) : Prop where
  level : p.isGlobal = true ∨ level = .listSetters
  place : p.advance n ≤ 2

/-- One part adds what it gives to where the scanner stands. -/
theorem scan_part {level : Level} {s : Scan} {given : List (Key × Text)} {n : Nat} {p : Part}
    (hs : s.Stands given n) (hfits : p.Fits level n) (hnew : (p.given n).1 ∉ given.map Prod.fst)
    (rest : List Text) :
    ∃ s' : Scan, s'.Stands (given ++ [p.given n]) (p.advance n) ∧
      scan level s (p.words ++ rest) = scan level s' rest := by
  have hsettled := Scan.stands_settled (given ++ [p.given n]) (p.advance n)
  have hliteral := hs.facts.1
  cases p with
  | verbose isShort =>
      refine ⟨_, hsettled, ?_⟩
      cases isShort with
      | true =>
          have hbind : ∀ r : Reading Scan, (r.bind fun s => .ok s) = r := fun r => by
            cases r <;> rfl
          refine scan_flag hs ?_ hnew rfl rest
          simp only [Scan.word, hliteral]
          exact hbind _
      | false =>
          refine scan_flag hs ?_ hnew rfl rest
          simp only [Scan.word, hliteral]
          rfl
  | markerName file isJoined =>
      cases isJoined with
      | true => exact ⟨_, hsettled, scan_joined hs hnew file.text rest⟩
      | false => exact ⟨_, Scan.stands_held hnew rfl, scan_separate hs file rest⟩
  | operand o =>
      obtain rfl : level = .listSetters := by simpa [Part.isGlobal] using hfits.level
      have hsuits : suits (Part.operandKey n) o.text = true := by
        cases n <;> simp [Part.operandKey, suits, o.ne_nil]
      exact ⟨_, Scan.stands_held hnew hsuits, scan_operand hs hfits.place o rest⟩
  | _ =>
      obtain rfl : level = .listSetters := by simpa [Part.isGlobal] using hfits.level
      refine ⟨_, hsettled, scan_flag hs ?_ hnew rfl rest⟩
      simp only [Scan.word, hliteral]
      rfl

/-- Parts add what they give, one after the other. -/
theorem scan_parts {level : Level} {ps : List Part} {s : Scan} {given : List (Key × Text)}
    {n : Nat} (hs : s.Stands given n)
    (hlevel : ∀ p ∈ ps, p.isGlobal = true ∨ level = .listSetters)
    (hplace : n + (ps.filterMap Part.operand?).length ≤ 2)
    (hnew : ((given ++ Part.givenFrom n ps).map Prod.fst).Nodup) (rest : List Text) :
    ∃ (s' : Scan) (m : Nat), s'.Stands (given ++ Part.givenFrom n ps) m ∧
      scan level s (ps.flatMap Part.words ++ rest) = scan level s' rest := by
  induction ps generalizing s given n with
  | nil => exact ⟨s, n, by simpa [Part.givenFrom] using hs, rfl⟩
  | cons p ps ih =>
      obtain ⟨hlevelHere, hlevelRest⟩ := List.forall_mem_cons.1 hlevel
      have hlength : p.advance n + (ps.filterMap Part.operand?).length =
          n + ((p :: ps).filterMap Part.operand?).length := by
        cases hp : p.operand? with
        | none => simp [Part.advance, hp]
        | some o => simp [Part.advance, hp]; omega
      have hfits : p.Fits level n := ⟨hlevelHere, by omega⟩
      have hsplit : given ++ Part.givenFrom n (p :: ps) =
          given ++ [p.given n] ++ Part.givenFrom (p.advance n) ps := by
        simp [Part.givenFrom]
      have hfresh : (p.given n).1 ∉ given.map Prod.fst := by
        intro hmem
        rw [List.map_append] at hnew
        exact (List.nodup_append.1 hnew).2.2 _ hmem _ (by simp [Part.givenFrom]) rfl
      obtain ⟨s₁, hs₁, hscan⟩ := scan_part hs hfits hfresh (ps.flatMap Part.words ++ rest)
      rw [hsplit] at hnew ⊢
      obtain ⟨s₂, m, hs₂, hrest⟩ := ih hs₁ hlevelRest (by omega) hnew
      refine ⟨s₂, m, hs₂, ?_⟩
      rw [List.flatMap_cons, List.append_assoc, hscan, hrest]

/-! ## Looking keys up -/

namespace Scan

variable {s : Scan} {key : Key} {value : Text}

theorem has_eq_isSome_get? (s : Scan) (key : Key) : s.has key = (s.get? key).isSome := by
  simp [has, get?, List.isSome_find?]

/-- Where no key comes twice, the one entry of a key is found. -/
theorem get?_eq_some_iff (h : (s.given.map Prod.fst).Nodup) :
    s.get? key = some value ↔ (key, value) ∈ s.given := by
  unfold get?
  constructor
  · intro hget
    obtain ⟨e, he, rfl⟩ := Option.map_eq_some_iff.1 hget
    have hkey : e.1 = key := by simpa using List.find?_some he
    exact hkey ▸ List.mem_of_find?_eq_some he
  · intro hmem
    cases hfind : s.given.find? (·.1 = key) with
    | none => simpa using List.find?_eq_none.1 hfind _ hmem
    | some e =>
        have hkey : e.1 = key := by simpa using List.find?_some hfind
        have hsame : e = (key, value) :=
          List.inj_on_of_nodup_map h (List.mem_of_find?_eq_some hfind) hmem hkey
        simp [hsame]

end Scan

/-! ## Requests -/

/-- What a command line for a report asks for. -/
structure Request where
  dir : Operand
  name : Option Operand := none
  file : Option Operand := none
  markdown : Bool := false
  includeSubst : Bool := false
  failOnEmpty : Bool := false
  verbose : Bool := false

namespace Request

/-- The parts of a request, where two of the options have a choice of spelling. -/
def parts (r : Request) (isShort isJoined : Bool) : List Part :=
  (if r.verbose then [.verbose isShort] else []) ++
    (r.file.map (Part.markerName · isJoined)).toList ++
    (if r.markdown then [.markdown] else []) ++
    (if r.includeSubst then [.includeSubst] else []) ++
    (if r.failOnEmpty then [.failOnEmpty] else []) ++
    .operand r.dir :: (r.name.map Part.operand).toList

/-- The parts of a request stand before and after the subcommand: all of them and no others, in
any order in which the operands come after the subcommand and the directory before the name,
and with nothing but global options before the subcommand. -/
structure IsArranged (r : Request) (before after : List Part) : Prop where
  parts : ∃ isShort isJoined, (before ++ after).Perm (r.parts isShort isJoined)
  isGlobal : ∀ p ∈ before, p.isGlobal = true
  operands : after.filterMap Part.operand? = r.dir :: r.name.toList

/-- How a request is to be understood; its marker name goes before that of the environment. -/
def invocation (r : Request) (env : Environment) : Invocation where
  markerName := (r.file.map Operand.text).or env.markerName
  verbose := r.verbose
  command := .listSetters ⟨r.dir.text, r.name.map Operand.text, r.markdown, r.includeSubst,
    r.failOnEmpty⟩

/-- What a request gives for a key; flags have an empty value. -/
def value? (r : Request) : Key → Option Text
  | .verbose => if r.verbose then some [] else none
  | .markerName => r.file.map Operand.text
  | .markdown => if r.markdown then some [] else none
  | .includeSubst => if r.includeSubst then some [] else none
  | .failOnEmpty => if r.failOnEmpty then some [] else none
  | .dir => some r.dir.text
  | .name => r.name.map Operand.text
  | .shell => none

/-- All that a request gives. -/
def given (r : Request) : List (Key × Text) :=
  [.verbose, .markerName, .markdown, .includeSubst, .failOnEmpty, .dir, .name].filterMap
    fun key => (r.value? key).map fun value => (key, value)

theorem mem_given_iff {r : Request} {key : Key} {value : Text} :
    (key, value) ∈ r.given ↔ r.value? key = some value := by
  unfold given
  rw [List.mem_filterMap]
  constructor
  · rintro ⟨k, -, hk⟩
    obtain ⟨v, hv, hpair⟩ := Option.map_eq_some_iff.1 hk
    obtain ⟨rfl, rfl⟩ := Prod.mk.inj hpair
    exact hv
  · intro h
    refine ⟨key, ?_, by simp [h]⟩
    cases key with
    | shell => simp [value?] at h
    | _ => simp

/-- No key comes twice. -/
theorem nodup_keys_given (r : Request) : (r.given.map Prod.fst).Nodup := by
  have hsublist : ∀ keys : List Key, List.Sublist
      ((keys.filterMap fun key => (r.value? key).map fun value => (key, value)).map Prod.fst)
      keys := by
    intro keys
    induction keys with
    | nil => exact .slnil
    | cons key keys ih =>
        cases hvalue : r.value? key with
        | none => simpa [hvalue] using ih.cons key
        | some value => simpa [hvalue] using ih
  exact (hsublist _).nodup (by decide)

/-- The parts of a request give what it does. -/
theorem given_eq (r : Request) (isShort isJoined : Bool) :
    r.given = (r.parts isShort isJoined).filterMap Part.option? ++
      Part.operandsFrom 0 (r.dir :: r.name.toList) := by
  obtain ⟨dir, name, file, markdown, includeSubst, failOnEmpty, verbose⟩ := r
  cases name <;> cases file <;> cases markdown <;> cases includeSubst <;> cases failOnEmpty <;>
    cases verbose <;> rfl

end Request

/-! ## Reading the whole line -/

/-- The word between the parts. -/
def subcommandWord : Text := "list-setters".toList

section Before

variable {before : List Part} (hglobal : ∀ p ∈ before, p.isGlobal = true)
include hglobal

/-- There are no operands among global parts. -/
theorem operands_of_isGlobal : before.filterMap Part.operand? = [] := by
  rw [List.filterMap_eq_nil_iff]
  intro p hp
  have hp := hglobal p hp
  cases p <;> simp_all [Part.isGlobal, Part.operand?]

theorem givenFrom_perm_options :
    (Part.givenFrom 0 before).Perm (before.filterMap Part.option?) := by
  have hperm := Part.givenFrom_perm 0 before
  rwa [operands_of_isGlobal hglobal, Part.operandsFrom, List.append_nil] at hperm

/-- Global parts give nothing but the marker name and the wish to be verbose. -/
theorem get?_of_isGlobal {top : Scan} (htop : top.given = Part.givenFrom 0 before) {key : Key}
    (hverbose : key ≠ .verbose) (hmarker : key ≠ .markerName) : top.get? key = none := by
  unfold Scan.get?
  rw [Option.map_eq_none_iff, List.find?_eq_none]
  rintro ⟨k, value⟩ hmem
  rw [htop, (givenFrom_perm_options hglobal).mem_iff] at hmem
  obtain ⟨p, hp, hgives⟩ := List.mem_filterMap.1 hmem
  have hp := hglobal p hp
  have hkey : k = .verbose ∨ k = .markerName := by
    cases p <;> simp_all [Part.isGlobal, Part.option?, Part.given]
  rcases hkey with rfl | rfl
  · simpa using hverbose.symm
  · simpa using hmarker.symm

end Before

/-- What the two levels give is what the request does. -/
theorem givenFrom_append_perm {r : Request} {before after : List Part}
    (h : r.IsArranged before after) :
    (Part.givenFrom 0 before ++ Part.givenFrom 0 after).Perm r.given := by
  obtain ⟨isShort, isJoined, hparts⟩ := h.parts
  have hafter := Part.givenFrom_perm 0 after
  rw [h.operands] at hafter
  have hoptions := hparts.filterMap Part.option?
  rw [List.filterMap_append] at hoptions
  rw [r.given_eq isShort isJoined]
  calc Part.givenFrom 0 before ++ Part.givenFrom 0 after
    _ ~ before.filterMap Part.option? ++ (after.filterMap Part.option? ++
          Part.operandsFrom 0 (r.dir :: r.name.toList)) :=
      (givenFrom_perm_options h.isGlobal).append hafter
    _ = before.filterMap Part.option? ++ after.filterMap Part.option? ++
          Part.operandsFrom 0 (r.dir :: r.name.toList) := (List.append_assoc ..).symm
    _ ~ (r.parts isShort isJoined).filterMap Part.option? ++
          Part.operandsFrom 0 (r.dir :: r.name.toList) := hoptions.append_right _

/-- What the subcommand gives goes before what the program does, and together they give what
the request does. -/
theorem get?_or_get? {r : Request} {before after : List Part} (h : r.IsArranged before after)
    {top sub : Scan} (htop : top.given = Part.givenFrom 0 before)
    (hsub : sub.given = Part.givenFrom 0 after) (key : Key) :
    (sub.get? key).or (top.get? key) = r.value? key := by
  have hperm := givenFrom_append_perm h
  have hnodup : ((top.given ++ sub.given).map Prod.fst).Nodup := by
    rw [htop, hsub, (hperm.map Prod.fst).nodup_iff]
    exact r.nodup_keys_given
  have hmem : ∀ value, r.value? key = some value ↔
      (key, value) ∈ top.given ∨ (key, value) ∈ sub.given := by
    intro value
    rw [← Request.mem_given_iff, ← hperm.mem_iff, List.mem_append, htop, hsub]
  rw [List.map_append] at hnodup
  obtain ⟨hnodupTop, hnodupSub, hapart⟩ := List.nodup_append.1 hnodup
  refine Option.ext fun value => ?_
  rw [hmem, Option.or_eq_some_iff, Scan.get?_eq_some_iff hnodupSub,
    Scan.get?_eq_some_iff hnodupTop]
  constructor
  · rintro (hin | ⟨-, hin⟩)
    · exact Or.inr hin
    · exact Or.inl hin
  · rintro (hin | hin)
    · refine Or.inr ⟨?_, hin⟩
      refine Option.eq_none_iff_forall_ne_some.2 ?_
      intro other hother
      have hmemSub := (Scan.get?_eq_some_iff hnodupSub).1 hother
      exact hapart key (List.mem_map.2 ⟨_, hin, rfl⟩) key (List.mem_map.2 ⟨_, hmemSub, rfl⟩) rfl
    · exact Or.inl hin

theorem flagOr_none (s : Scan) (key : Key) : flagOr s key none = .ok (s.has key) := by
  unfold flagOr
  cases s.has key <;> rfl

theorem isSome_ite (b : Bool) : (if b then some ([] : Text) else none).isSome = b := by
  cases b <;> rfl

/-- The subcommand makes of its level what the request asks for. -/
theorem parseCommand_of_get? {env : Environment} (henv : env.failOnEmpty = none) {r : Request}
    {words : List Text} {sub settled : Scan}
    (hscan : scan .listSetters {} words = .ok ⟨sub, none⟩) (hsettle : sub.settle = .ok settled)
    (hgiven : ∀ key, key ≠ .verbose → key ≠ .markerName → settled.get? key = r.value? key) :
    parseCommand env .listSetters words = .ok (settled, (r.invocation env).command) := by
  have hdir := hgiven .dir (by decide) (by decide)
  have hname := hgiven .name (by decide) (by decide)
  have hmarkdown := hgiven .markdown (by decide) (by decide)
  have hsubst := hgiven .includeSubst (by decide) (by decide)
  have hempty := hgiven .failOnEmpty (by decide) (by decide)
  simp only [parseCommand, hscan, bind, Except.bind, hsettle, commandOf, henv, flagOr_none,
    Scan.has_eq_isSome_get?, hdir, hname, hmarkdown, hsubst, hempty, Request.value?, isSome_ite]
  rfl

/-- The subcommand is recognised after any parts, and what comes after it is left to it. -/
theorem scan_subcommand {top : Scan} {given : List (Key × Text)} {n : Nat}
    (h : top.Stands given n) (rest : List Text) :
    scan .program top (subcommandWord :: rest) = .ok ⟨top, some (.listSetters, rest)⟩ := by
  obtain ⟨hliteral, -, hwaiting⟩ := h.facts
  have hnamed : Level.ofName? subcommandWord = some .listSetters := rfl
  have hsubcommand : top.subcommand? .program subcommandWord = some .listSetters := by
    simp [Scan.subcommand?, hliteral, hwaiting, hnamed]
  rw [scan, hsubcommand]

/-- The parts of a request are read as the request in every arrangement. -/
theorem parse_of_isArranged {env : Environment} (henv : env.failOnEmpty = none) {r : Request}
    {before after : List Part} (h : r.IsArranged before after) :
    parse env (before.flatMap Part.words ++ subcommandWord :: after.flatMap Part.words) =
      .ok (r.invocation env) := by
  have hnodup := ((givenFrom_append_perm h).map Prod.fst).nodup_iff.2 r.nodup_keys_given
  rw [List.map_append] at hnodup
  obtain ⟨hnodupTop, hnodupSub, -⟩ := List.nodup_append.1 hnodup
  have hplaceTop : 0 + (before.filterMap Part.operand?).length ≤ 2 := by
    simp [operands_of_isGlobal h.isGlobal]
  have hplaceSub : 0 + (after.filterMap Part.operand?).length ≤ 2 := by
    rw [h.operands]
    cases r.name <;> simp
  obtain ⟨top, m, htop, hscanTop⟩ := scan_parts (Scan.stands_settled [] 0)
    (fun p hp => Or.inl (h.isGlobal p hp)) hplaceTop hnodupTop
    (subcommandWord :: after.flatMap Part.words)
  obtain ⟨sub, n, hsub, hscanSub⟩ := scan_parts (Scan.stands_settled [] 0)
    (fun _ _ => Or.inr rfl) hplaceSub hnodupSub []
  rw [scan_subcommand htop] at hscanTop
  rw [List.append_nil] at hscanSub
  -- Keys are looked up only when both levels have settled.
  obtain ⟨settledTop, hsettleTop, hgivenTop⟩ : ∃ settled, top.settle = .ok settled ∧
      settled.given = Part.givenFrom 0 before := ⟨_, htop, rfl⟩
  obtain ⟨settledSub, hsettleSub, hgivenSub⟩ : ∃ settled, sub.settle = .ok settled ∧
      settled.given = Part.givenFrom 0 after := ⟨_, hsub, rfl⟩
  have hgiven := get?_or_get? h hgivenTop hgivenSub
  have hcommand : parseCommand env .listSetters (after.flatMap Part.words) =
      .ok (settledSub, (r.invocation env).command) := by
    refine parseCommand_of_get? henv hscanSub hsettleSub ?_
    intro key hverbose hmarker
    have hnone := get?_of_isGlobal h.isGlobal hgivenTop hverbose hmarker
    rw [← hgiven key, hnone, Option.or_none]
  have hverbose : (settledTop.has .verbose || settledSub.has .verbose) = r.verbose := by
    rw [Scan.has_eq_isSome_get?, Scan.has_eq_isSome_get?, Bool.or_comm, ← Option.isSome_or,
      hgiven, Request.value?, isSome_ite]
  have hscan : scan .program {} (before.flatMap Part.words ++
      subcommandWord :: after.flatMap Part.words) = _ := hscanTop
  simp only [parse, hscan, bind, Except.bind, hcommand, hsettleTop, hgiven, hverbose]
  rfl

/-- A request, all of whose texts are names of subcommands. -/
def lookalikes : Request where
  dir := ⟨"help".toList, by decide, by decide⟩
  name := some ⟨"version".toList, by decide, by decide⟩
  file := some ⟨"list-setters".toList, by decide, by decide⟩
  markdown := true
  failOnEmpty := true
  verbose := true

/-- Values and operands are not taken for subcommands, and options stand between them. -/
theorem parse_of_isArranged_lookalikes :
    lookalikes.IsArranged
      [.verbose true, .markerName ⟨"list-setters".toList, by decide, by decide⟩ false]
      [.failOnEmpty, .operand ⟨"help".toList, by decide, by decide⟩, .markdown,
        .operand ⟨"version".toList, by decide, by decide⟩] ∧
    parse { markerName := some "Krmfile".toList }
      ["-v".toList, "--openapi-file".toList, "list-setters".toList, "list-setters".toList,
        "--fail-on-empty".toList, "help".toList, "--markdown".toList, "version".toList] =
      .ok ⟨some "list-setters".toList, true,
        .listSetters ⟨"help".toList, some "version".toList, true, false, true⟩⟩ := by
  have h : lookalikes.IsArranged
      [.verbose true, .markerName ⟨"list-setters".toList, by decide, by decide⟩ false]
      [.failOnEmpty, .operand ⟨"help".toList, by decide, by decide⟩, .markdown,
        .operand ⟨"version".toList, by decide, by decide⟩] :=
    ⟨⟨true, false, by decide⟩, by decide, by decide⟩
  have henv : ({ markerName := some "Krmfile".toList } : Environment).failOnEmpty = none := rfl
  exact ⟨h, parse_of_isArranged henv h⟩

end SetterReport.CommandLine
