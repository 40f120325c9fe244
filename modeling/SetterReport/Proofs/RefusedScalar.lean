import Mathlib.Data.List.Basic
import SetterReport.Metadata
import SetterReport.Proofs.LoadedKeys

/-!
# Scalars that are refused

An integer that needs more than 64 bits, and at most 128, is no value and no string either: the
plain scalars that spell one are the ones that are refused (`resolve_eq_none_iff`).

Loading goes through a node part by part and fails with the first part that does; the step is one
list of items (`run_items_eq_none`) or of entries (`run_entries_eq_none`).  So a refused scalar
takes the whole document with it, whether it stands in a sequence, among the keys of a mapping or
among its values, and whatever tags and anchors there are around it.  In quotes it would be a
string.

## Main result

* `parse_of_refused` — no metadata file with a refused scalar in it has records.
-/

namespace SetterReport

namespace Yaml

/-! ## Integers of more than 64 bits -/

namespace Scalar

theorem integer?_of_mem_nulls {t : Text} (h : t ∈ nulls) : integer? t = none := by
  have hall : ∀ t ∈ nulls, integer? t = none := by decide
  exact hall t h

theorem integer?_of_truth? {t : Text} {b : Bool} (h : truth? t = some b) : integer? t = none := by
  have htrue : ∀ t ∈ ["true".toList, "True".toList, "TRUE".toList], integer? t = none := by decide
  have hfalse : ∀ t ∈ ["false".toList, "False".toList, "FALSE".toList], integer? t = none := by
    decide
  unfold truth? at h
  split at h
  · rename_i hmem
    exact htrue t (List.contains_iff_mem.1 hmem)
  split at h
  · rename_i hmem
    exact hfalse t (List.contains_iff_mem.1 hmem)
  · simp at h

/-- An integer of more than 64 bits and at most 128, negative or not. -/
def IsTooWide (i : Int) : Prop :=
  -Int.pow 2 127 ≤ i ∧ i < -Int.pow 2 63 ∨ Int.pow 2 64 ≤ i ∧ i < Int.pow 2 128

theorem isTooWide_iff {i : Int} : IsTooWide i ↔ fits i = false ∧ fitsTwice i = true := by
  have hpow : ∀ n, Int.pow 2 n = 2 ^ n := fun _ => rfl
  simp only [IsTooWide, fits, fitsTwice, hpow, Bool.and_eq_false_iff, decide_eq_false_iff_not,
    Bool.and_eq_true, decide_eq_true_eq]
  omega

/-- The plain scalars that are refused are the integers that are too wide. -/
theorem resolve_eq_none_iff {t : Text} :
    resolve t = none ↔ ∃ i, integer? t = some i ∧ IsTooWide i := by
  constructor
  · intro h
    unfold resolve at h
    split at h
    · simp at h
    split at h
    · simp at h
    split at h
    · rename_i i hi
      obtain ⟨hspelled, htwice⟩ := Option.filter_eq_some_iff.1 hi
      refine ⟨i, hspelled, isTooWide_iff.2 ⟨?_, htwice⟩⟩
      simpa using h
    · split at h <;> simp at h
  · rintro ⟨i, hspelled, hwide⟩
    obtain ⟨hfits, htwice⟩ := isTooWide_iff.1 hwide
    have hnull : t ∉ nulls := by
      intro hmem
      simp [integer?_of_mem_nulls hmem] at hspelled
    have htruth : truth? t = none := by
      cases h : truth? t with
      | none => rfl
      | some b => simp [integer?_of_truth? h] at hspelled
    have hinteger : (integer? t).filter fitsTwice = some i :=
      Option.filter_eq_some_iff.2 ⟨hspelled, htwice⟩
    unfold resolve
    simp [hnull, htruth, hinteger, hfits]

end Scalar

/-! ## Loading a node that is refused -/

/-- A plain scalar without a tag stands at a node or below it. -/
inductive Node.Holds (text : Text) : Node → Prop
  | scalar (anchor : Option Nat) : Holds text (.scalar anchor .none text true)
  | item {anchor : Option Nat} {tag : Tag} {items : List Node} {n : Node} (mem : n ∈ items)
      (inner : Holds text n) : Holds text (.sequence anchor tag items)
  | key {anchor : Option Nat} {tag : Tag} {entries : List (Node × Node)} {e : Node × Node}
      (mem : e ∈ entries) (inner : Holds text e.1) : Holds text (.mapping anchor tag entries)
  | value {anchor : Option Nat} {tag : Tag} {entries : List (Node × Node)} {e : Node × Node}
      (mem : e ∈ entries) (inner : Holds text e.2) : Holds text (.mapping anchor tag entries)

namespace Loading

/-- Items are not loaded if one of them never is. -/
theorem run_items_eq_none {load : Node → Loading Value} {ns : List Node} {n : Node} (hn : n ∈ ns)
    (hload : ∀ s, (load n).run s = none) (s : Nat) : (items load ns).run s = none := by
  induction ns generalizing s with
  | nil => simp at hn
  | cons m rest ih =>
      rcases List.mem_cons.1 hn with rfl | hn
      · simp [items, hload s]
      · cases hm : (load m).run s with
        | none => simp [items, hm]
        | some x => simp [items, hm, ih hn]

/-- Entries are not loaded if the key or the value of one of them never is. -/
theorem run_entries_eq_none {loadKey loadValue : Node → Loading Value} {ns : List (Node × Node)}
    {e : Node × Node} (he : e ∈ ns)
    (hload : (∀ s, (loadKey e.1).run s = none) ∨ ∀ s, (loadValue e.2).run s = none)
    (done : List (Value × Value)) (s : Nat) :
    (entries loadKey loadValue done ns).run s = none := by
  induction ns generalizing done s with
  | nil => simp at he
  | cons m rest ih =>
      cases hkey : (loadKey m.1).run s with
      | none => simp [entries, hkey]
      | some key =>
          cases hvalue : (loadValue m.2).run key.2 with
          | none => simp [entries, hkey, hvalue]
          | some value =>
              -- the first entry has been loaded, so that it is not the one in question
              have hrest : e ∈ rest := by
                refine (List.mem_cons.1 he).resolve_left ?_
                rintro rfl
                rcases hload with hload | hload
                · simp [hload s] at hkey
                · simp [hload key.2] at hvalue
              cases hadd : addEntry done key.1 value.1 with
              | none =>
                  simp only [entries, StateT.run_bind, hkey, hvalue, hadd, Option.bind_eq_bind,
                    Option.bind_some, run_failure]
              | some next => simp [entries, hkey, hvalue, hadd, ih hrest]

theorem scalar_eq_none {text : Text} (hrefused : Scalar.resolve text = none) (ignoresTag : Bool) :
    scalar ignoresTag .none text true = none := by
  cases ignoresTag <;> simp [scalar, scalarValue, nameOf, kindOf?, Tag.localName?, hrefused]

/-- A mapping is not loaded if a key or a value in it never is, whether or not tags count. -/
theorem run_mapping_eq_none {context : LoadContext} {depth : Nat} {es : List (Node × Node)}
    {e : Node × Node} (he : e ∈ es)
    (hload : (∀ ignoresTag s, (node context depth ignoresTag e.1).run s = none) ∨
      ∀ ignoresTag s, (node context depth ignoresTag e.2).run s = none)
    (anchor : Option Nat) (tag : Tag) (ignoresTag : Bool) (s : Nat) :
    (node context (depth + 1) ignoresTag (.mapping anchor tag es)).run s = none := by
  have hentries : ∀ ignoresKey, (entries (node context depth ignoresKey)
      (node context depth false) [] es).run s = none := fun ignoresKey =>
    run_entries_eq_none he (hload.imp (fun h => h ignoresKey) fun h => h false) [] s
  simp [node, follow, content, hentries]

/-- A node that holds a refused scalar is not loaded, at whatever depth. -/
theorem run_node_eq_none {text : Text} (hrefused : Scalar.resolve text = none) {n : Node}
    (h : n.Holds text) (context : LoadContext) (depth : Nat) (ignoresTag : Bool) (s : Nat) :
    (node context depth ignoresTag n).run s = none := by
  induction h generalizing depth ignoresTag s with
  | scalar anchor =>
      have hscalar := scalar_eq_none hrefused ignoresTag
      cases depth <;> simp [node, follow, content, hscalar]
  | item mem inner ih =>
      cases depth with
      -- a collection is not loaded where none may be nested any more
      | zero => rfl
      | succ depth =>
          have hitems := run_items_eq_none mem (ih depth false)
          simp [node, follow, content, hitems]
  | key mem inner ih =>
      cases depth with
      | zero => rfl
      | succ depth => exact run_mapping_eq_none mem (Or.inl (ih depth)) _ _ ignoresTag s
  | value mem inner ih =>
      cases depth with
      | zero => rfl
      | succ depth => exact run_mapping_eq_none mem (Or.inr (ih depth)) _ _ ignoresTag s

end Loading

/-- A text whose node holds a refused scalar has no value. -/
theorem read_eq_none_of_refused {text t : Text} (hrefused : Scalar.resolve text = none) {n : Node}
    (hread : Node.read t = some n) (h : n.Holds text) : Value.read t = none := by
  unfold Value.read Value.ofNode
  simp [hread, Loading.run_node_eq_none hrefused h]

end Yaml

namespace Metadata

open Yaml

/-- A metadata file is refused as a whole for one integer that is too wide, written without quotes
and without a tag, wherever it stands and whatever else is in the file. -/
theorem parse_of_refused {text t : Text} {i : Int} (hspelled : Scalar.integer? text = some i)
    (hwide : Scalar.IsTooWide i) {n : Node} (hread : Node.read t = some n) (h : n.Holds text)
    (path : Text) :
    parse path t = .error (.metadataRefused path .malformed) := by
  have hrefused := Scalar.resolve_eq_none_iff.2 ⟨i, hspelled, hwide⟩
  unfold parse
  rw [read_eq_none_of_refused hrefused hread h]

/-- The first integer that is too large, as the value of a setter. -/
example :
    parse "pkg/Krmfile".toList
        ("openAPI:\n".toList ++
          "  definitions:\n".toList ++
          "    io.k8s.cli.setters.limit:\n".toList ++
          "      x-k8s-cli:\n".toList ++
          "        setter:\n".toList ++
          "          value: 18446744073709551616\n".toList) =
      .error (.metadataRefused "pkg/Krmfile".toList .malformed) := by
  decide +kernel

end Metadata

end SetterReport
