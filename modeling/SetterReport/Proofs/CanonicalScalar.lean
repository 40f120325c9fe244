import SetterReport.Metadata.Declaration
import SetterReport.Proofs.LoadedKeys

/-!
# Scalars that are printed as they are written

A plain scalar is resolved, and what a reader sees is printed from its value.  The two texts are
the same for every string, for `true` and `false`, for integers in decimal digits without a plus
sign, and for floating point numbers in the one form that is printed.  Of a truth value the other
spellings are lost; so are a plus sign, the mark of a base and the sign of a negative zero; and
`1.10` is the same number as `1.1`.

For integers the two directions are those of the digits: that the digits of a number are the
digits it was read from holds as superfluous zeros have been kept apart before.

## Main result

* `textOf_resolve_eq_iff` — which plain scalars are printed as they are written.
-/

namespace SetterReport.Yaml.Scalar

open Decimal

/-! ## Decimal digits -/

theorem toNat_of_isDigit {c : Char} (h : c.isDigit = true) : 48 ≤ c.toNat ∧ c.toNat ≤ 57 :=
  Char.isDigit_iff_toNat.1 h

theorem digitChar_of_isDigit {c : Char} (h : c.isDigit = true) :
    Nat.digitChar (c.toNat - 48) = c := by
  have hrange := toNat_of_isDigit h
  apply Char.toNat_inj.1
  rw [Nat.toNat_digitChar_of_lt_ten (by omega)]
  omega

theorem digit?_ten_eq_some {c : Char} {d : Nat} (h : digit? 10 c = some d) :
    c.isDigit = true ∧ d = c.toNat - 48 := by
  obtain ⟨hvalue, hsmall⟩ := Option.filter_eq_some_iff.1 h
  have hbound : d < 10 := by simpa using hsmall
  unfold Text.hexDigit? at hvalue
  split at hvalue
  · rename_i hdigit
    exact ⟨hdigit, (Option.some.inj hvalue).symm⟩
  split at hvalue
  · rename_i hletter
    have hlow : 97 ≤ c.toNat := hletter.1
    have hd := Option.some.inj hvalue
    omega
  split at hvalue
  · rename_i hletter
    have hlow : 65 ≤ c.toNat := hletter.1
    have hd := Option.some.inj hvalue
    omega
  · simp at hvalue

/-- Digits that are read after a number are the digits that follow it in what is read. -/
theorem ofNat_append_of_foldlM {ds : Text} {start n : Nat} (hstart : 0 < start)
    (h : ds.foldlM (fun n c => (digit? 10 c).map (10 * n + ·)) start = some n) :
    Text.ofNat start ++ ds = Text.ofNat n := by
  induction ds generalizing start with
  | nil =>
      obtain rfl : start = n := by simpa using h
      simp
  | cons c ds ih =>
      simp only [List.foldlM_cons, Option.bind_eq_bind, Option.bind_eq_some_iff,
        Option.map_eq_some_iff] at h
      obtain ⟨_, ⟨d, hd, rfl⟩, hrest⟩ := h
      obtain ⟨hdigit, rfl⟩ := digit?_ten_eq_some hd
      have hrange := toNat_of_isDigit hdigit
      have hbound : c.toNat - 48 < 10 := by omega
      have hnext : Text.ofNat start ++ [c] = Text.ofNat (10 * start + (c.toNat - 48)) := by
        have happend := Nat.toDigits_append_toDigits (b := 10) (n := start) (by decide) hstart hbound
        rw [Nat.toDigits_of_lt_base hbound, digitChar_of_isDigit hdigit] at happend
        exact happend
      calc
        Text.ofNat start ++ c :: ds = (Text.ofNat start ++ [c]) ++ ds := by simp
        _ = Text.ofNat (10 * start + (c.toNat - 48)) ++ ds := by rw [hnext]
        _ = Text.ofNat n := ih (by omega) hrest

/-- A numeral without superfluous zeros has the digits of its number. -/
theorem ofNat_of_natural? {ds : Text} {n : Nat} (hpadded : isPadded ds = false)
    (hdigits : ds.all Char.isDigit = true) (h : natural? 10 ds = some n) : Text.ofNat n = ds := by
  cases ds with
  | nil => simp [natural?] at h
  | cons c ds =>
      replace h : (c :: ds).foldlM (fun n c => (digit? 10 c).map (10 * n + ·)) 0 = some n := h
      simp only [List.foldlM_cons, Option.bind_eq_bind, Option.bind_eq_some_iff,
        Option.map_eq_some_iff, Nat.mul_zero, Nat.zero_add] at h
      obtain ⟨_, ⟨d, hd, rfl⟩, hrest⟩ := h
      obtain ⟨hdigit, rfl⟩ := digit?_ten_eq_some hd
      have hrange := toNat_of_isDigit hdigit
      by_cases hzero : c = '0'
      · subst hzero
        cases ds with
        | nil =>
            obtain rfl : 0 = n := by simpa using hrest
            rfl
        | cons d ds =>
            have hrest : (d :: ds).all Char.isDigit = true := by simpa using hdigits
            have hpad : isPadded ('0' :: d :: ds) = (d :: ds).all Char.isDigit := rfl
            simp [hpad, hrest] at hpadded
      · have hpositive : 0 < c.toNat - 48 := by
          have hne : c.toNat ≠ 48 := fun hsame => hzero (Char.toNat_inj.1 hsame)
          omega
        have hfirst : Text.ofNat (c.toNat - 48) = [c] := by
          unfold Text.ofNat
          rw [Nat.toDigits_of_lt_base (by omega), digitChar_of_isDigit hdigit]
        have happend := ofNat_append_of_foldlM hpositive hrest
        rw [hfirst] at happend
        exact happend.symm

/-! ## Integers -/

/-- Whether a text is an integer in decimal digits, with a minus sign unless it is zero. -/
def isDecimal : Text → Bool
  | '-' :: ds => ds.all Char.isDigit && ds != ['0']
  | ds => ds.all Char.isDigit

/-- A numeral in decimal digits has the digits of its number. -/
theorem ofNat_of_marked? {ds : Text} {n : Nat} (hdigits : ds.all Char.isDigit = true)
    (h : marked? ds = some n) : Text.ofNat n = ds := by
  unfold marked? at h
  split at h
  · simp at hdigits
  · simp at hdigits
  · simp at hdigits
  · split at h
    · simp at h
    · rename_i hpadded
      exact ofNat_of_natural? (by simpa using hpadded) hdigits h

theorem all_isDigit_ofNat (n : Nat) : (Text.ofNat n).all Char.isDigit = true :=
  List.all_eq_true.2 fun _ hc => Nat.isDigit_of_mem_toDigits (by decide) (by decide) hc

theorem isDecimal_of_all {t : Text} (h : t.all Char.isDigit = true) : isDecimal t = true := by
  unfold isDecimal
  split
  · simp at h
  · exact h

/-- An integer is printed in decimal digits. -/
theorem isDecimal_signed (i : Int) : isDecimal (Scientific.signed i) = true := by
  cases i with
  | ofNat n => exact isDecimal_of_all (all_isDigit_ofNat n)
  | negSucc n =>
      have hnonzero : Text.ofNat (n + 1) ≠ ['0'] := by
        intro hzero
        have hvalue : n + 1 = Nat.ofDigitChars 10 ['0'] 0 := by
          rw [← hzero, Text.ofNat, Nat.ofDigitChars_ten_toDigits]
        exact absurd hvalue (Nat.succ_ne_zero n)
      simp [Scientific.signed, isDecimal, all_isDigit_ofNat, hnonzero]

/-- The integers that are printed as they are written. -/
theorem signed_eq_iff {t : Text} {i : Int} (h : integer? t = some i) :
    Scientific.signed i = t ↔ isDecimal t = true := by
  constructor
  · rintro rfl
    exact isDecimal_signed i
  intro hdecimal
  unfold integer? at h
  split at h
  · rename_i ds
    obtain ⟨i, hi, rfl⟩ := Option.map_eq_some_iff.1 h
    obtain ⟨n, hn, hcast⟩ := Option.bind_eq_some_iff.1 hi
    obtain rfl := Option.some.inj hcast
    simp only [isDecimal, Bool.and_eq_true, bne_iff_ne, ne_eq] at hdecimal
    have hdigits := ofNat_of_marked? hdecimal.1 hn
    cases n with
    | zero => exact absurd hdigits.symm hdecimal.2
    | succ n => exact congrArg ('-' :: ·) hdigits
  · simp [isDecimal] at hdecimal
  · rename_i hminus hplus
    obtain ⟨i, hi, rfl⟩ := Option.map_eq_some_iff.1 h
    obtain ⟨n, hn, hcast⟩ := Option.bind_eq_some_iff.1 hi
    obtain rfl := Option.some.inj hcast
    rw [isDecimal] at hdecimal
    · exact ofNat_of_marked? hdecimal hn
    · exact hminus

/-! ## All scalars -/

/-- Whether a plain scalar is spelled as its value is printed. -/
def isCanonical (t : Text) : Bool :=
  match resolve t with
  | some (.bool _) => t == "true".toList || t == "false".toList
  | some (.number (.integer _)) => isDecimal t
  | some (.number n) => n.text == t
  | some (.string _) => true
  | _ => false

/-- A truth value is printed as it is written if it is written in small letters. -/
theorem textOf_bool_eq_iff {t : Text} {b : Bool} (h : truth? t = some b) :
    Metadata.textOf (.bool b) = t ↔ t = "true".toList ∨ t = "false".toList := by
  unfold truth? at h
  split at h
  · rename_i hmem
    obtain rfl := Option.some.inj h
    have hother : t ≠ "false".toList := by
      rintro rfl
      exact absurd hmem (by decide)
    rw [or_iff_left hother]
    exact eq_comm
  split at h
  · rename_i hmem
    obtain rfl := Option.some.inj h
    have hother : t ≠ "true".toList := by
      rintro rfl
      exact absurd hmem (by decide)
    rw [or_iff_right hother]
    exact eq_comm
  · simp at h

/-- No integer is read as a floating point number. -/
theorem float?_ne_integer (t : Text) (i : Int) : float? t ≠ some (.integer i) := by
  have hmap : ∀ (isNegative : Bool) (m : Option Binary64),
      m.map (Number.finite isNegative) ≠ some (.integer i) := by
    intro isNegative m
    cases m <;> simp
  unfold float?
  split
  · split
    · simp
    · exact hmap _ _
  · split
    · simp
    · exact hmap _ _
  · split
    · simp
    split
    · simp
    · exact hmap _ _

/-- What is seen of a plain scalar is what is written exactly if it is spelled as its value is
printed. -/
theorem textOf_resolve_eq_iff {t : Text} {v : Value} (h : resolve t = some v) (hnull : v ≠ .null) :
    Metadata.textOf v = t ↔ isCanonical t = true := by
  rcases resolve_cases h with ⟨rfl, -⟩ | ⟨b, rfl, hb⟩ | ⟨i, rfl, hi, -⟩ | ⟨n, rfl, hn⟩ | rfl
  · exact absurd rfl hnull
  · simp [isCanonical, h, textOf_bool_eq_iff hb]
  · simp only [isCanonical, h]
    exact signed_eq_iff hi
  · cases n with
    | integer i => exact absurd hn (float?_ne_integer t i)
    | finite isNegative x => simp [isCanonical, h, Metadata.textOf]
    | infinite isNegative => simp [isCanonical, h, Metadata.textOf]
    | notANumber => simp [isCanonical, h, Metadata.textOf]
  · simp [isCanonical, h, Metadata.textOf]

end SetterReport.Yaml.Scalar
