import SetterReport.Yaml.Load

/-!
# Keys of loaded mappings

Loading refuses a mapping with the same key twice, wherever it stands: in a sequence, in the
keys or the values of another mapping, under a tag or behind an alias.  So in a loaded value
no mapping has a key twice.

Loading is a recursion over the nesting that is still allowed.  What one level gives depends
only on what the level below it gives, so `KeepsKeysDistinct` is shown of one level from the
next, and of all of them by induction.

## Main result

* `hasDistinctKeys_of_read` — the value of a text has distinct keys in all of its mappings.
-/

namespace SetterReport.Yaml

/-- In no mapping at or inside a value is a key there twice. -/
inductive HasDistinctKeys : Value → Prop
  | null : HasDistinctKeys .null
  | bool (b : Bool) : HasDistinctKeys (.bool b)
  | number (n : Number) : HasDistinctKeys (.number n)
  | string (t : Text) : HasDistinctKeys (.string t)
  | sequence {items : List Value} (inItems : ∀ x ∈ items, HasDistinctKeys x) :
      HasDistinctKeys (.sequence items)
  | mapping {entries : List (Value × Value)}
      (distinct : entries.Pairwise fun a b => a.1.same b.1 = false)
      (inKeys : ∀ e ∈ entries, HasDistinctKeys e.1)
      (inValues : ∀ e ∈ entries, HasDistinctKeys e.2) : HasDistinctKeys (.mapping entries)
  | tagged {tag : Text} {v : Value} (inner : HasDistinctKeys v) : HasDistinctKeys (.tagged tag v)

namespace HasDistinctKeys

theorem withTag {v : Value} (h : HasDistinctKeys v) (name : Option Text) :
    HasDistinctKeys (Loading.withTag name v) := by
  cases name with
  | none => exact h
  | some tag => exact .tagged h

theorem untagged {v : Value} (h : HasDistinctKeys v) : HasDistinctKeys v.untagged := by
  induction h with
  | tagged _ ih => exact ih
  | null => exact .null
  | bool b => exact .bool b
  | number n => exact .number n
  | string t => exact .string t
  | sequence inItems => exact .sequence inItems
  | mapping distinct inKeys inValues => exact .mapping distinct inKeys inValues

/-- One more entry with a new key leaves the keys distinct. -/
theorem append_entry {done : List (Value × Value)} (hdone : HasDistinctKeys (.mapping done))
    {k v : Value} (hk : HasDistinctKeys k) (hv : HasDistinctKeys v)
    (hnew : ∀ e ∈ done, e.1.same k = false) : HasDistinctKeys (.mapping (done ++ [(k, v)])) := by
  cases hdone with
  | mapping distinct inKeys inValues =>
      apply HasDistinctKeys.mapping
      · apply List.pairwise_append.2
        exact ⟨distinct, List.pairwise_singleton _ _, by simpa using hnew⟩
      · exact List.forall_mem_append.2 ⟨inKeys, by simpa using hk⟩
      · exact List.forall_mem_append.2 ⟨inValues, by simpa using hv⟩

end HasDistinctKeys

/-! ## Scalars -/

/-- What a plain scalar can mean, and how it is spelled then. -/
theorem Scalar.resolve_cases {t : Text} {v : Value} (h : resolve t = some v) :
    (v = .null ∧ t ∈ nulls) ∨ (∃ b, v = .bool b ∧ truth? t = some b) ∨
      (∃ i, v = .number (.integer i) ∧ integer? t = some i ∧ fits i = true) ∨
      (∃ n, v = .number n ∧ float? t = some n) ∨ v = .string t := by
  unfold resolve at h
  by_cases hnull : nulls.contains t = true
  · rw [if_pos hnull] at h
    exact Or.inl ⟨(Option.some.inj h).symm, List.contains_iff_mem.1 hnull⟩
  rw [if_neg hnull] at h
  split at h
  · rename_i b hb
    exact Or.inr (Or.inl ⟨b, (Option.some.inj h).symm, hb⟩)
  split at h
  · rename_i i hi
    by_cases hfits : fits i = true
    · rw [if_pos hfits] at h
      have hspelled : integer? t = some i := (Option.filter_eq_some_iff.1 hi).1
      exact Or.inr (Or.inr (Or.inl ⟨i, (Option.some.inj h).symm, hspelled, hfits⟩))
    · simp [hfits] at h
  by_cases hpadded : isPadded t = true
  · rw [if_pos hpadded] at h
    exact Or.inr (Or.inr (Or.inr (Or.inr (Option.some.inj h).symm)))
  rw [if_neg hpadded] at h
  have hv := Option.some.inj h
  cases hfloat : float? t with
  | none =>
      rw [hfloat] at hv
      exact Or.inr (Or.inr (Or.inr (Or.inr hv.symm)))
  | some n =>
      rw [hfloat] at hv
      exact Or.inr (Or.inr (Or.inr (Or.inl ⟨n, hv.symm, rfl⟩)))

namespace Loading

theorem hasDistinctKeys_resolve {t : Text} {v : Value} (h : Scalar.resolve t = some v) :
    HasDistinctKeys v := by
  rcases Scalar.resolve_cases h with ⟨rfl, -⟩ | ⟨b, rfl, -⟩ | ⟨i, rfl, -⟩ | ⟨n, rfl, -⟩ | rfl
  · exact .null
  · exact .bool b
  · exact .number _
  · exact .number n
  · exact .string t

theorem hasDistinctKeys_resolveAs {kind : Scalar.Kind} {t : Text} {v : Value}
    (h : Scalar.resolveAs kind t = some v) : HasDistinctKeys v := by
  cases kind with
  | null =>
      simp only [Scalar.resolveAs, Option.ite_none_right_eq_some, Option.some.injEq] at h
      exact h.2 ▸ .null
  | bool =>
      obtain ⟨b, -, rfl⟩ := Option.map_eq_some_iff.1 h
      exact .bool b
  | int =>
      obtain ⟨i, -, rfl⟩ := Option.map_eq_some_iff.1 h
      exact .number _
  | float =>
      obtain ⟨n, -, rfl⟩ := Option.map_eq_some_iff.1 h
      exact .number n

theorem hasDistinctKeys_scalarValue {tag : Tag} {text : Text} {isPlain : Bool} {v : Value}
    (h : scalarValue tag text isPlain = some v) : HasDistinctKeys v := by
  unfold scalarValue at h
  split at h
  · exact hasDistinctKeys_resolveAs h
  · exact Option.some.inj h ▸ .string text
  · split at h
    · exact hasDistinctKeys_resolve h
    · exact Option.some.inj h ▸ .string text

theorem hasDistinctKeys_scalar {ignoresTag : Bool} {tag : Tag} {text : Text} {isPlain : Bool}
    {v : Value} (h : scalar ignoresTag tag text isPlain = some v) : HasDistinctKeys v := by
  unfold scalar at h
  dsimp only at h
  split at h
  · obtain ⟨inner, hinner, rfl⟩ := Option.map_eq_some_iff.1 h
    exact (hasDistinctKeys_scalarValue hinner).withTag _
  · exact hasDistinctKeys_scalarValue h

/-! ## Collections -/

@[simp]
theorem run_failure {α : Type} (s : Nat) : (failure : Loading α).run s = none :=
  rfl

@[simp]
theorem run_lift {α : Type} (x : Option α) (s : Nat) :
    (liftM x : Loading α).run s = x.map (·, s) := by
  cases x <;> rfl

/-- Whatever a way of loading nodes gives has distinct keys. -/
def KeepsKeysDistinct (load : Node → Loading Value) : Prop :=
  ∀ n s v s', (load n).run s = some (v, s') → HasDistinctKeys v

theorem hasDistinctKeys_items {load : Node → Loading Value} (hload : KeepsKeysDistinct load)
    (ns : List Node) {s s' : Nat} {vs : List Value}
    (h : (items load ns).run s = some (vs, s')) : ∀ v ∈ vs, HasDistinctKeys v := by
  induction ns generalizing s vs s' with
  | nil =>
      simp only [items, StateT.run_pure, Option.pure_def, Option.some.injEq, Prod.mk.injEq] at h
      simp [← h.1]
  | cons n rest ih =>
      simp only [items, bind_pure_comp, StateT.run_bind, StateT.run_map, Option.bind_eq_bind,
        Option.bind_eq_some_iff, Option.map_eq_map, Option.map_eq_some_iff, Prod.exists,
        Prod.mk.injEq] at h
      obtain ⟨v, between, hv, others, _, hothers, rfl, rfl⟩ := h
      exact List.forall_mem_cons.2 ⟨hload n s v between hv, ih hothers⟩

/-- An entry is added at the end, and only under a new key. -/
theorem addEntry_eq_some {done es : List (Value × Value)} {k v : Value}
    (h : addEntry done k v = some es) :
    (∀ e ∈ done, e.1.same k = false) ∧ es = done ++ [(k, v)] := by
  unfold addEntry at h
  split at h
  · simp at h
  · rename_i hnew
    simp only [List.any_eq_true, not_exists, not_and, Bool.not_eq_true] at hnew
    exact ⟨hnew, (Option.some.inj h).symm⟩

theorem hasDistinctKeys_entries {loadKey loadValue : Node → Loading Value}
    (hkey : KeepsKeysDistinct loadKey) (hvalue : KeepsKeysDistinct loadValue)
    (ns : List (Node × Node)) {done es : List (Value × Value)} {s s' : Nat}
    (hdone : HasDistinctKeys (.mapping done))
    (h : (entries loadKey loadValue done ns).run s = some (es, s')) :
    HasDistinctKeys (.mapping es) := by
  induction ns generalizing done s with
  | nil =>
      simp only [entries, StateT.run_pure, Option.pure_def, Option.some.injEq, Prod.mk.injEq] at h
      rwa [← h.1]
  | cons n rest ih =>
      simp only [entries, StateT.run_bind, Option.bind_eq_bind, Option.bind_eq_some_iff,
        Prod.exists] at h
      obtain ⟨k, afterKey, hk, v, afterValue, hv, h⟩ := h
      split at h
      · rename_i next hadd
        obtain ⟨hnew, rfl⟩ := addEntry_eq_some hadd
        exact ih (hdone.append_entry (hkey _ _ _ _ hk) (hvalue _ _ _ _ hv) hnew) h
      · simp at h

/-! ## Nodes -/

/-- One level of loading keeps the keys distinct if the level below it does. -/
theorem keepsKeysDistinct_content {inner : Option (Bool → Node → Loading Value)}
    (hinner : ∀ load ∈ inner, ∀ ignoresTag, KeepsKeysDistinct (load ignoresTag))
    (ignoresTag : Bool) : KeepsKeysDistinct (content inner ignoresTag) := by
  intro n s v s' h
  cases n with
  | aliasTo number => simp [content] at h
  | scalar anchor tag text isPlain =>
      simp only [content, run_lift, Option.map_eq_some_iff, Prod.mk.injEq] at h
      obtain ⟨v, hv, rfl, -⟩ := h
      exact hasDistinctKeys_scalar hv
  | sequence anchor tag xs =>
      cases inner with
      | none => simp [content] at h
      | some load =>
          simp only [content, bind_pure_comp, StateT.run_map, Option.map_eq_map,
            Option.map_eq_some_iff, Prod.exists, Prod.mk.injEq] at h
          obtain ⟨vs, _, hvs, rfl, -⟩ := h
          have hitems := hasDistinctKeys_items (hinner load rfl false) xs hvs
          exact (HasDistinctKeys.sequence hitems).withTag _
  | mapping anchor tag es =>
      cases inner with
      | none => simp [content] at h
      | some load =>
          simp only [content, bind_pure_comp, StateT.run_map, Option.map_eq_map,
            Option.map_eq_some_iff, Prod.exists, Prod.mk.injEq] at h
          obtain ⟨vs, _, hvs, rfl, -⟩ := h
          have hnone : HasDistinctKeys (.mapping []) := .mapping .nil (by simp) (by simp)
          have hentries := hasDistinctKeys_entries (hinner load rfl _) (hinner load rfl false) es
            hnone hvs
          exact hentries.withTag _

theorem keepsKeysDistinct_node (context : LoadContext) (depth : Nat) (ignoresTag : Bool) :
    KeepsKeysDistinct (node context depth ignoresTag) := by
  induction depth generalizing ignoresTag with
  | zero =>
      intro n s v s' h
      simp only [node, StateT.run_bind, Option.bind_eq_bind, Option.bind_eq_some_iff,
        Prod.exists] at h
      obtain ⟨ignoresHere, here, _, -, h⟩ := h
      exact keepsKeysDistinct_content (by simp) ignoresHere here _ v s' h
  | succ depth ih =>
      intro n s v s' h
      simp only [node, StateT.run_bind, Option.bind_eq_bind, Option.bind_eq_some_iff,
        Prod.exists] at h
      obtain ⟨ignoresHere, here, _, -, h⟩ := h
      have hinner : ∀ load ∈ some (node context depth), ∀ ignoresTag,
          KeepsKeysDistinct (load ignoresTag) := by
        intro load hload
        obtain rfl := Option.some.inj hload
        exact ih
      exact keepsKeysDistinct_content hinner ignoresHere here _ v s' h

end Loading

/-- In the value of a text no mapping has a key twice. -/
theorem hasDistinctKeys_of_read {t : Text} {v : Value} (h : Value.read t = some v) :
    HasDistinctKeys v := by
  simp only [Value.read, Value.ofNode, Option.bind_eq_some_iff, Option.map_eq_some_iff] at h
  obtain ⟨n, -, ⟨_, _⟩, hload, rfl⟩ := h
  exact Loading.keepsKeysDistinct_node _ _ _ _ _ _ _ hload

end SetterReport.Yaml
