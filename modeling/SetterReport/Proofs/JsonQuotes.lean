import Mathlib.Data.List.DropRight
import SetterReport.Json

/-!
# Quotes in JSON texts

Whether a character of a JSON text belongs to a string is told by the quotes before
it.  `Standing` is where a reader stands: outside all strings, in one, or in one
directly behind a backslash.  Outside no `#`, no `$` and no backslash can come, and
behind a backslash no blank.

Every reader of a part of JSON takes away a text that leads from outside to outside:
this is what one step of the reader keeps (`Spans`), from the blanks and the digits
to the members of a list, and by induction on the depth it holds of whole values.

## Main result

* `afterAll_of_read` — a text that is one JSON value leads from outside to outside.
-/

namespace SetterReport.Json

/-- Where in a JSON text a reader stands. -/
inductive Standing
  | outside
  | inside
  /-- In a string, directly behind a backslash. -/
  | escaped
deriving DecidableEq

namespace Standing

/-- The standing after one more character; none if no JSON text goes on like that. -/
def after : Standing → Char → Option Standing
  | outside, c =>
    if c = '\x22' then some inside
    else if c = '#' ∨ c = '$' ∨ c = '\\' then none
    else some outside
  | inside, c =>
    if c = '\x22' then some outside else if c = '\\' then some escaped else some inside
  | escaped, c => if Text.isBlank c then none else some inside

/-- The standing after a text. -/
def afterAll : Standing → Text → Option Standing
  | s, [] => some s
  | s, c :: rest => (s.after c).bind (afterAll · rest)

@[simp] theorem afterAll_nil (s : Standing) : s.afterAll [] = some s := rfl

@[simp] theorem afterAll_cons (s : Standing) (c : Char) (rest : Text) :
    s.afterAll (c :: rest) = (s.after c).bind (afterAll · rest) := rfl

theorem afterAll_append (s : Standing) (a b : Text) :
    s.afterAll (a ++ b) = (s.afterAll a).bind (afterAll · b) := by
  induction a generalizing s with
  | nil => rfl
  | cons c a ih =>
      rw [List.cons_append, afterAll_cons, afterAll_cons]
      cases s.after c with
      | none => rfl
      | some next => exact ih next

/-- Characters that keep a standing keep it together. -/
theorem afterAll_of_forall {s : Standing} {t : Text} (h : ∀ c ∈ t, s.after c = some s) :
    s.afterAll t = some s := by
  induction t with
  | nil => rfl
  | cons c t ih =>
      rw [afterAll_cons, h c (by simp)]
      exact ih fun d hd => h d (by simp [hd])

/-- The characters that mean something outside strings or in them. -/
def marks : Text := ['\x22', '#', '$', '\\']

/-- A class of characters without marks changes nothing, except directly behind a
backslash. -/
theorem after_of_class {p : Char → Bool} (hp : marks.all (fun d => !p d) = true) {s : Standing}
    (hs : s ≠ escaped) {c : Char} (hc : p c = true) : s.after c = some s := by
  have hne : ∀ d ∈ marks, c ≠ d := by
    rintro d hd rfl
    have hnot := List.all_eq_true.1 hp c hd
    simp [hc] at hnot
  have hquote : c ≠ '\x22' := hne _ (by simp [marks])
  have hback : c ≠ '\\' := hne _ (by simp [marks])
  cases s with
  | outside =>
      have hhash : c ≠ '#' := hne _ (by simp [marks])
      have hdollar : c ≠ '$' := hne _ (by simp [marks])
      simp [after, hquote, hback, hhash, hdollar]
  | inside => simp [after, hquote, hback]
  | escaped => exact absurd rfl hs

theorem after_blank {s : Standing} (hs : s ≠ escaped) {c : Char} (hc : Text.isBlank c = true) :
    s.after c = some s :=
  after_of_class (by decide) hs hc

/-- Blanks keep the standing, except directly behind a backslash. -/
theorem afterAll_blanks {s : Standing} (hs : s ≠ escaped) {t : Text}
    (ht : ∀ c ∈ t, Text.isBlank c = true) : s.afterAll t = some s :=
  afterAll_of_forall fun c hc => after_blank hs (ht c hc)

/-- Nobody stands behind a backslash after a blank. -/
theorem ne_escaped_of_after_blank {s s' : Standing} {c : Char} (hc : Text.isBlank c = true)
    (h : s.after c = some s') : s' ≠ escaped := by
  by_cases hs : s = escaped
  · subst hs
    simp [after, hc] at h
  · rw [after_blank hs hc] at h
    obtain rfl := Option.some.inj h
    exact hs

end Standing

open Standing

/-- What is taken from the front of a text to leave `rest` leads from outside to
outside. -/
def Spans (t rest : Text) : Prop :=
  ∃ used, t = used ++ rest ∧ outside.afterAll used = some outside

namespace Spans

theorem refl (t : Text) : Spans t t := ⟨[], rfl, rfl⟩

theorem trans {a b c : Text} (hab : Spans a b) (hbc : Spans b c) : Spans a c := by
  obtain ⟨first, rfl, hfirst⟩ := hab
  obtain ⟨second, rfl, hsecond⟩ := hbc
  refine ⟨first ++ second, by simp, ?_⟩
  rw [afterAll_append, hfirst]
  exact hsecond

/-- Characters of no meaning to strings. -/
theorem append {used : Text} (h : ∀ c ∈ used, outside.after c = some outside) (rest : Text) :
    Spans (used ++ rest) rest :=
  ⟨used, rfl, afterAll_of_forall h⟩

theorem cons {c : Char} (h : outside.after c = some outside) (rest : Text) :
    Spans (c :: rest) rest := by
  have hone : ∀ d ∈ [c], outside.after d = some outside := by simpa using h
  exact append hone rest

end Spans

/-! ## Blanks, words and numbers -/

theorem after_isBlank {s : Standing} (hs : s ≠ escaped) {c : Char} (h : isBlank c = true) :
    s.after c = some s :=
  after_of_class (by decide) hs h

theorem spans_skipBlanks (t : Text) : Spans t (skipBlanks t) := by
  have hsplit : t.takeWhile isBlank ++ skipBlanks t = t := List.takeWhile_append_dropWhile
  conv => arg 1; rw [← hsplit]
  refine Spans.append (fun c hc => after_isBlank (by decide) ?_) _
  have hall : ∀ c ∈ t.takeWhile isBlank, isBlank c = true := fun _ => List.mem_takeWhile_imp
  exact hall c hc

theorem spans_digits (t : Text) : Spans t (digits t).2 := by
  have hsplit : t.takeWhile Char.isDigit ++ (digits t).2 = t := List.takeWhile_append_dropWhile
  conv => arg 1; rw [← hsplit]
  refine Spans.append (fun c hc => after_of_class (p := Char.isDigit) (by decide) (by decide) ?_) _
  have hall : ∀ c ∈ t.takeWhile Char.isDigit, c.isDigit = true := fun _ =>
    List.mem_takeWhile_imp
  exact hall c hc

/-- Digits that must be there are followed by what follows all digits. -/
theorem spans_of_digits {t ds rest : Text} (h : digits t = (ds, rest)) : Spans t rest := by
  have hspans := spans_digits t
  rwa [h] at hspans

theorem spans_readWhole {t ds rest : Text} (h : readWhole t = some (ds, rest)) :
    Spans t rest := by
  unfold readWhole at h
  split at h
  · simp at h
  · obtain ⟨rfl, rfl⟩ : ['0'] = ds ∧ _ = rest := by simpa using h
    exact spans_of_digits ‹_›
  · simp at h
  · obtain ⟨rfl, rfl⟩ : _ = ds ∧ _ = rest := by simpa using h
    exact spans_of_digits ‹_›

theorem spans_readFraction {t ds rest : Text} (h : readFraction t = some (ds, rest)) :
    Spans t rest := by
  unfold readFraction at h
  split at h
  · split at h
    · simp at h
    · obtain ⟨rfl, rfl⟩ : _ = ds ∧ _ = rest := by simpa using h
      exact (Spans.cons (by rfl) _).trans (spans_of_digits ‹_›)
  · obtain ⟨rfl, rfl⟩ : [] = ds ∧ t = rest := by simpa using h
    exact Spans.refl t

theorem spans_readExponent {t ds rest : Text} {isShrunk : Bool}
    (h : readExponent t = some (isShrunk, ds, rest)) : Spans t rest := by
  have hdigits : ∀ {b : Bool} {r : Text} {p : Text × Text}, digits r = p →
      some (b, p.1, p.2) = some (isShrunk, ds, rest) → Spans r rest := by
    rintro b r ⟨found, after⟩ hr hp
    obtain ⟨-, -, rfl⟩ : b = isShrunk ∧ found = ds ∧ after = rest := by simpa using hp
    exact spans_of_digits hr
  unfold readExponent at h
  dsimp only at h
  split at h
  · rename_i c tail
    split at h
    · rename_i hletter
      have hc : outside.after c = some outside := by
        rcases (by simpa using hletter : c = 'e' ∨ c = 'E') with rfl | rfl <;> rfl
      refine (Spans.cons hc _).trans ?_
      -- a plus, a minus or no sign, and then digits
      split at h
      · split at h
        · simp at h
        · exact (Spans.cons (by rfl) _).trans (hdigits ‹_› h)
      · split at h
        · simp at h
        · exact (Spans.cons (by rfl) _).trans (hdigits ‹_› h)
      · split at h
        · simp at h
        · exact hdigits ‹_› h
    · obtain ⟨-, -, rfl⟩ : false = isShrunk ∧ [] = ds ∧ c :: tail = rest := by simpa using h
      exact Spans.refl _
  · obtain ⟨-, -, rfl⟩ : false = isShrunk ∧ [] = ds ∧ [] = rest := by simpa using h
    exact Spans.refl _

theorem spans_readNumeral {t rest : Text} {n : Numeral}
    (h : readNumeral t = some (n, rest)) : Spans t rest := by
  unfold readNumeral at h
  obtain ⟨⟨whole, t₁⟩, hwhole, h⟩ := Option.bind_eq_some_iff.1 h
  obtain ⟨⟨fraction, t₂⟩, hfraction, h⟩ := Option.bind_eq_some_iff.1 h
  obtain ⟨⟨isShrunk, exponent, t₃⟩, hexponent, h⟩ := Option.bind_eq_some_iff.1 h
  have hrest : t₃ = rest := by
    simp only at h
    split at h
    · exact (Prod.mk.inj (Option.some.inj h)).2
    · simp at h
  rw [← hrest]
  exact ((spans_readWhole hwhole).trans (spans_readFraction hfraction)).trans
    (spans_readExponent hexponent)

/-- A minus sign may stand before a number. -/
theorem spans_sign (t : Text) : Spans t (match t with | '-' :: rest => rest | _ => t) := by
  split
  · exact Spans.cons (by rfl) _
  · exact Spans.refl t

theorem spans_readNumber {t rest : Text} {v : Json} (h : readNumber t = some (v, rest)) :
    Spans t rest := by
  unfold readNumber at h
  dsimp only at h
  split at h
  · rename_i n after hnumeral
    obtain rfl : after = rest := (Prod.mk.inj (Option.some.inj h)).2
    exact (spans_sign t).trans (spans_readNumeral hnumeral)
  · simp at h

theorem spans_readWord {word t rest : Text} {result v : Json}
    (hword : ∀ c ∈ word, outside.after c = some outside)
    (h : readWord word result t = some (v, rest)) : Spans t rest := by
  unfold readWord at h
  obtain ⟨after, hafter, hpair⟩ := Option.map_eq_some_iff.1 h
  obtain rfl : after = rest := (Prod.mk.inj hpair).2
  rw [← List.isPrefixOf?_eq_some_iff_append_eq.1 hafter]
  exact Spans.append hword after

/-! ## Strings -/

theorem after_hexDigit {c : Char} {n : Nat} (h : Text.hexDigit? c = some n) :
    inside.after c = some inside := by
  have hsome : (Text.hexDigit? c).isSome = true := by
    rw [h]
    rfl
  exact after_of_class (p := fun d => (Text.hexDigit? d).isSome) (by decide) (by decide) hsome

theorem afterAll_hexCode {a b c d : Char} {n : Nat} (h : hexCode? a b c d = some n) :
    inside.afterAll [a, b, c, d] = some inside := by
  unfold hexCode? at h
  obtain ⟨_, ha, h⟩ := Option.bind_eq_some_iff.1 h
  obtain ⟨_, hb, h⟩ := Option.bind_eq_some_iff.1 h
  obtain ⟨_, hc, h⟩ := Option.bind_eq_some_iff.1 h
  obtain ⟨_, hd, -⟩ := Option.bind_eq_some_iff.1 h
  simp only [afterAll_cons, after_hexDigit ha, after_hexDigit hb, after_hexDigit hc,
    after_hexDigit hd, Option.bind_some, afterAll_nil]

theorem after_escape {e x : Char} (h : escape? e = some x) : escaped.after e = some inside := by
  unfold escape? at h
  split at h <;> first | rfl | simp at h

/-- The pieces of a string lead out of it. -/
theorem afterAll_of_pieces {t rest : Text} {ps : List Piece} (h : pieces t = some (ps, rest)) :
    ∃ used, t = used ++ rest ∧ inside.afterAll used = some outside := by
  -- what leads back into the string comes before the pieces that lead out of it
  have hlater : ∀ (used : Text) {more : Text}, inside.afterAll used = some inside →
      (∃ later, more = later ++ rest ∧ inside.afterAll later = some outside) →
      ∃ all, used ++ more = all ++ rest ∧ inside.afterAll all = some outside := by
    rintro used more hused ⟨later, rfl, hlater⟩
    refine ⟨used ++ later, by simp, ?_⟩
    rw [afterAll_append, hused]
    exact hlater
  fun_induction pieces t generalizing ps with
  | case1 => simp at h
  | case2 tail =>
      obtain rfl : tail = rest := by simpa using congrArg (Option.map Prod.snd) h
      exact ⟨['\x22'], rfl, rfl⟩
  | case3 a b c d tail ih =>
      obtain ⟨n, hn, h⟩ := Option.bind_eq_some_iff.1 h
      obtain ⟨⟨qs, after⟩, hqs, h⟩ := Option.bind_eq_some_iff.1 h
      obtain rfl : after = rest := by simpa using congrArg (Option.map Prod.snd) h
      refine hlater ('\\' :: 'u' :: [a, b, c, d]) ?_ (ih hqs)
      exact afterAll_hexCode hn
  | case4 e tail hcode ih =>
      obtain ⟨x, hx, h⟩ := Option.bind_eq_some_iff.1 h
      obtain ⟨⟨qs, after⟩, hqs, h⟩ := Option.bind_eq_some_iff.1 h
      obtain rfl : after = rest := by simpa using congrArg (Option.map Prod.snd) h
      refine hlater ['\\', e] ?_ (ih hqs)
      show (escaped.after e).bind _ = _
      rw [after_escape hx]
      rfl
  | case5 c tail hquote hcode hescape hcontrol => simp at h
  | case6 c tail hquote hcode hescape hcontrol ih =>
      obtain ⟨⟨qs, after⟩, hqs, h⟩ := Option.bind_eq_some_iff.1 h
      obtain rfl : after = rest := by simpa using congrArg (Option.map Prod.snd) h
      have hback : c ≠ '\\' := by
        rintro rfl
        cases tail with
        | nil => simp [pieces] at hqs
        | cons e tail => exact hescape e tail rfl rfl
      refine hlater [c] ?_ (ih hqs)
      have hnot : c ≠ '\x22' := fun hc => hquote hc
      simp [Standing.after, hnot, hback]

theorem spans_readString {t rest s : Text} (h : readString t = some (s, rest)) :
    Spans ('\x22' :: t) rest := by
  unfold readString at h
  obtain ⟨⟨ps, after⟩, hps, h⟩ := Option.bind_eq_some_iff.1 h
  obtain ⟨s', -, h⟩ := Option.bind_eq_some_iff.1 h
  obtain rfl : after = rest := by simpa using congrArg (Option.map Prod.snd) h
  obtain ⟨used, rfl, hused⟩ := afterAll_of_pieces hps
  exact ⟨'\x22' :: used, rfl, hused⟩

/-! ## Values -/

/-- A reader that takes away what leads from outside to outside. -/
def IsSpanning {α : Type} (item : Text → Option (α × Text)) : Prop :=
  ∀ t x rest, item t = some (x, rest) → Spans t rest

theorem IsSpanning.members {α : Type} {item : Text → Option (α × Text)} (hitem : IsSpanning item)
    {close : Char} (hclose : outside.after close = some outside) (fuel : Nat) (isFirst : Bool) :
    IsSpanning (members close item fuel isFirst) := by
  induction fuel generalizing isFirst with
  | zero => intro t xs rest h; simp [Json.members] at h
  | succ fuel ih =>
      intro t xs rest h
      unfold Json.members at h
      have hblanks := spans_skipBlanks t
      split at h
      · simp at h
      · rename_i c tail hskip
        rw [hskip] at hblanks
        refine hblanks.trans ?_
        split at h
        · rename_i hc
          obtain rfl : c = close := by simpa using hc
          obtain rfl : tail = rest := by simpa using congrArg (Option.map Prod.snd) h
          exact Spans.cons hclose _
        · obtain ⟨here, hhere, h⟩ := Option.bind_eq_some_iff.1 h
          obtain ⟨⟨x, after⟩, hx, h⟩ := Option.bind_eq_some_iff.1 h
          obtain ⟨⟨ys, last⟩, hys, h⟩ := Option.map_eq_some_iff.1 h
          obtain rfl : last = rest := (Prod.mk.inj h).2
          have hcomma : Spans (c :: tail) here := by
            split at hhere
            · obtain rfl := Option.some.inj hhere
              exact Spans.refl _
            · split at hhere
              · rename_i hc
                obtain rfl : c = ',' := by simpa using hc
                obtain rfl := Option.some.inj hhere
                exact Spans.cons (by rfl) _
              · simp at hhere
          exact ((hcomma.trans (spans_skipBlanks here)).trans (hitem _ _ _ hx)).trans
            (ih false _ _ _ hys)

theorem IsSpanning.member {item : Text → Option (Json × Text)} (hitem : IsSpanning item) :
    IsSpanning (member item) := by
  intro t m rest h
  unfold Json.member at h
  split at h
  · obtain ⟨⟨name, after⟩, hname, h⟩ := Option.bind_eq_some_iff.1 h
    refine (spans_readString hname).trans ((spans_skipBlanks after).trans ?_)
    simp only at h
    split at h
    · rename_i tail hcolon
      rw [hcolon]
      obtain ⟨⟨v, last⟩, hv, h⟩ := Option.bind_eq_some_iff.1 h
      obtain rfl : last = rest := by simpa using congrArg (Option.map Prod.snd) h
      exact ((Spans.cons (by rfl) _).trans (spans_skipBlanks _)).trans (hitem _ _ _ hv)
    · simp at h
  · simp at h

/-- A list of any members, after its opening bracket. -/
theorem IsSpanning.list {α : Type} {item : Text → Option (α × Text)} (hitem : IsSpanning item)
    {opening close : Char} (hopening : outside.after opening = some outside)
    (hclose : outside.after close = some outside) {fuel : Nat} {wrap : List α → Json}
    {tail rest : Text} {v : Json}
    (h : (Json.members close item fuel true tail).map (fun p => (wrap p.1, p.2)) = some (v, rest)) :
    Spans (opening :: tail) rest := by
  obtain ⟨⟨xs, after⟩, hxs, hpair⟩ := Option.map_eq_some_iff.1 h
  obtain rfl : after = rest := (Prod.mk.inj hpair).2
  exact (Spans.cons hopening _).trans (hitem.members hclose _ _ _ _ _ hxs)

/-- What the values of a list keep, the list keeps. -/
theorem isSpanning_readValue_of_inner {depth : Nat}
    (hinner : ∀ d, depth = d + 1 → IsSpanning (readValue d)) : IsSpanning (readValue depth) := by
  intro t v rest h
  unfold readValue at h
  split at h
  · obtain ⟨⟨s, after⟩, hs, hpair⟩ := Option.map_eq_some_iff.1 h
    obtain rfl : after = rest := (Prod.mk.inj hpair).2
    exact spans_readString hs
  · cases depth with
    | zero => simp at h
    | succ d => exact (hinner d rfl).list (by rfl) (by rfl) h
  · cases depth with
    | zero => simp at h
    | succ d => exact (hinner d rfl).member.list (by rfl) (by rfl) h
  · exact spans_readWord (by simp [Standing.after]) h
  · exact spans_readWord (by simp [Standing.after]) h
  · exact spans_readWord (by simp [Standing.after]) h
  · exact spans_readNumber h

theorem isSpanning_readValue (depth : Nat) : IsSpanning (readValue depth) := by
  induction depth with
  | zero => exact isSpanning_readValue_of_inner fun d h => by simp at h
  | succ depth ih =>
      refine isSpanning_readValue_of_inner fun d h => ?_
      obtain rfl : depth = d := by simpa using h
      exact ih

/-- A text that is one JSON value leads from outside to outside. -/
theorem afterAll_of_read {t : Text} {v : Json} (h : read t = some v) :
    outside.afterAll t = some outside := by
  unfold read at h
  obtain ⟨⟨v', after⟩, hv, h⟩ := Option.bind_eq_some_iff.1 h
  have hend : skipBlanks after = [] := by
    simp only at h
    split at h
    · simpa using ‹(skipBlanks after).isEmpty = true›
    · simp at h
  have hspans : Spans t [] := by
    rw [← hend]
    exact ((spans_skipBlanks t).trans (isSpanning_readValue _ _ _ _ hv)).trans
      (spans_skipBlanks after)
  obtain ⟨used, rfl, hused⟩ := hspans
  rwa [List.append_nil]

end SetterReport.Json
