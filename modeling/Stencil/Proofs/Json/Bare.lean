import Stencil.Json.Reader

/-!
# White space, words and numbers in JSON

The values that stand without quotes and brackets are words and numbers. They are written with characters
that have no other meaning, and the reader of a number looks at what comes behind it only to see that the
number does not go on.

Main statements: `spelled_of_numerals?` and `numerals?_of_spelled`.
-/

namespace Stencil.Json

open Stencil.Decimal

/-! ## White space -/

/-- Whether a text holds nothing but white space between tokens. -/
def AllSpace (cs : List Char) : Prop := ∀ c ∈ cs, isSpace c = true

instance (cs : List Char) : Decidable (AllSpace cs) :=
  List.decidableBAll _ cs

@[simp] theorem allSpace_nil : AllSpace [] := by simp [AllSpace]

@[simp] theorem skipSpace_nil : skipSpace [] = [] := rfl

theorem skipSpace_cons (c : Char) (cs : List Char) :
    skipSpace (c :: cs) = if isSpace c then skipSpace cs else c :: cs := by
  simp [skipSpace, List.dropWhile_cons]

theorem skipSpace_of_not_isSpace {c : Char} (h : isSpace c = false) (cs : List Char) :
    skipSpace (c :: cs) = c :: cs := by simp [skipSpace_cons, h]

theorem skipSpace_append {w : List Char} (h : AllSpace w) (cs : List Char) :
    skipSpace (w ++ cs) = skipSpace cs := by
  induction w with
  | nil => rfl
  | cons c w ih =>
      have hw : AllSpace w := fun d hd => h d (List.mem_cons_of_mem c hd)
      rw [List.cons_append, skipSpace_cons, if_pos (h c List.mem_cons_self), ih hw]

theorem exists_append_skipSpace (cs : List Char) : ∃ w, AllSpace w ∧ cs = w ++ skipSpace cs := by
  refine ⟨cs.takeWhile isSpace, ?_, (List.takeWhile_append_dropWhile).symm⟩
  exact List.all_eq_true.mp List.all_takeWhile

theorem skipSpace_eq_nil_iff {cs : List Char} : skipSpace cs = [] ↔ AllSpace cs := by
  constructor
  · intro h
    obtain ⟨w, hw, he⟩ := exists_append_skipSpace cs
    rw [he, h, List.append_nil]
    exact hw
  · intro h
    rw [← List.append_nil cs, skipSpace_append h, skipSpace_nil]

theorem isSpace_of_skipSpace {cs rest : List Char} {c : Char} (h : skipSpace cs = c :: rest) :
    isSpace c = false := by
  induction cs with
  | nil => cases h
  | cons d cs ih =>
      rw [skipSpace_cons] at h
      split at h
      · exact ih h
      · cases h
        simpa using ‹¬ isSpace c = true›

@[simp] theorem skipSpace_skipSpace (cs : List Char) : skipSpace (skipSpace cs) = skipSpace cs := by
  cases h : skipSpace cs with
  | nil => rfl
  | cons c rest => exact skipSpace_of_not_isSpace (isSpace_of_skipSpace h) rest

theorem length_skipSpace_le (cs : List Char) : (skipSpace cs).length ≤ cs.length := by
  obtain ⟨w, -, he⟩ := exists_append_skipSpace cs
  have hl := congrArg List.length he
  rw [List.length_append] at hl
  omega

/-! ## Words -/

theorem afterWord?_eq_some_iff {w cs rest : List Char} :
    afterWord? w cs = some rest ↔ cs = w ++ rest := by
  induction w generalizing cs with
  | nil => simp [afterWord?]
  | cons c w ih =>
      cases cs with
      | nil => simp [afterWord?]
      | cons d cs =>
          by_cases hc : c = d
          · simp [afterWord?, hc, ih]
          · simp [afterWord?, hc, Ne.symm hc]

/-- The characters that words and numbers are written with. -/
def isBareChar (c : Char) : Bool := c.isAlphanum || c == '+' || c == '-' || c == '.'

/-- Whether a text is spelled as a value without quotes and brackets: its characters are of that kind, and
it starts with a letter or a digit, or with a minus sign in front of a digit. -/
structure Bare (w : List Char) : Prop where
  char : ∀ c ∈ w, isBareChar c = true
  head : ∃ c rest, w = c :: rest
    ∧ (c.isAlphanum = true ∨ c = '-' ∧ ∃ d more, rest = d :: more ∧ d.isDigit = true)

/-- The words, with what they stand for. -/
def words : List (List Char × Json) :=
  [(['n', 'u', 'l', 'l'], .null), (['t', 'r', 'u', 'e'], .bool true),
    (['f', 'a', 'l', 's', 'e'], .bool false)]

theorem bare_of_mem_words {w : List Char} {v : Json} (h : (w, v) ∈ words) : Bare w := by
  simp only [words, List.mem_cons, List.not_mem_nil, or_false, Prod.mk.injEq] at h
  rcases h with ⟨rfl, -⟩ | ⟨rfl, -⟩ | ⟨rfl, -⟩ <;>
    exact ⟨List.all_eq_true.mp (by decide), _, _, rfl, .inl (by decide)⟩

/-! ## Numbers -/

/-- Whether a number ends in front of a text. -/
def Stops (cs : List Char) : Prop := ∀ c, cs.head? = some c → isBareChar c = false

theorem isBareChar_of_isDigit {c : Char} (h : c.isDigit = true) : isBareChar c = true := by
  simp [isBareChar, Char.isAlphanum, h]

theorem Stops.not_isDigit {cs : List Char} (h : Stops cs) {c : Char} (hc : cs.head? = some c) :
    c.isDigit = false := by
  cases hd : c.isDigit with
  | false => rfl
  | true => simpa [isBareChar_of_isDigit hd] using h c hc

/-- The digits at the front of a text are all there are. -/
theorem spanDigits_append {ds : List Char} (hd : ∀ c ∈ ds, c.isDigit = true) {rest : List Char}
    (hr : ∀ c, rest.head? = some c → c.isDigit = false) : spanDigits (ds ++ rest) = (ds, rest) := by
  have hrest : rest.takeWhile Char.isDigit = [] ∧ rest.dropWhile Char.isDigit = rest := by
    cases rest with
    | nil => exact ⟨rfl, rfl⟩
    | cons c rest => simp [hr c rfl]
  simp only [spanDigits, List.takeWhile_append_of_pos hd, List.dropWhile_append_of_pos hd, hrest,
    List.append_nil]

theorem eq_append_of_spanDigits {cs ds rest : List Char} (h : spanDigits cs = (ds, rest)) :
    cs = ds ++ rest ∧ ∀ c ∈ ds, c.isDigit = true := by
  obtain ⟨rfl, rfl⟩ := Prod.mk.inj h
  exact ⟨List.takeWhile_append_dropWhile.symm, List.all_eq_true.mp List.all_takeWhile⟩

/-- Whether a text is at least one digit. -/
def Digits (ds : List Char) : Prop := ds ≠ [] ∧ ∀ c ∈ ds, c.isDigit = true

/-- How the sign of an exponent is written; a plus sign makes no difference. -/
inductive SignSpelled : Bool → List Char → Prop where
  | minus : SignSpelled true ['-']
  | plus : SignSpelled false ['+']
  | none : SignSpelled false []

/-- How the exponent of a number is written. -/
inductive ExponentSpelled : Option Exponent → List Char → Prop where
  | none : ExponentSpelled none []
  | some {negative : Bool} {ds sign : List Char} {e : Char} (he : e = 'e' ∨ e = 'E')
      (hs : SignSpelled negative sign) (hd : Digits ds) :
      ExponentSpelled (some ⟨negative, ds⟩) (e :: (sign ++ ds))

/-- How the fraction of a number is written. -/
inductive FractionSpelled : Option (List Char) → List Char → Prop where
  | none : FractionSpelled none []
  | some {ds : List Char} (hd : Digits ds) : FractionSpelled (some ds) ('.' :: ds)

/-- How a number is written, without a superfluous zero in front. -/
inductive Spelled : Numerals → List Char → Prop where
  | intro {negative : Bool} {whole fraction exponent : List Char} {f : Option (List Char)}
      {x : Option Exponent} (hw : Digits whole) (hz : whole.head? = some '0' → whole.length ≤ 1)
      (hf : FractionSpelled f fraction) (hx : ExponentSpelled x exponent) :
      Spelled ⟨negative, whole, f, x⟩
        ((if negative then ['-'] else []) ++ (whole ++ (fraction ++ exponent)))

/-! ### What is read was written so -/

theorem exponentSpelled_of_exponentPart? {cs rest : List Char} {x : Exponent} {e : Char}
    (he : e = 'e' ∨ e = 'E') (h : exponentPart? cs = some (x, rest)) :
    ∃ w, e :: cs = w ++ rest ∧ ExponentSpelled (some x) w := by
  have hsign : ∃ negative sign body, SignSpelled negative sign ∧ cs = sign ++ body
      ∧ exponentPart? cs = (if (spanDigits body).1.isEmpty then none
        else some (⟨negative, (spanDigits body).1⟩, (spanDigits body).2)) := by
    rcases cs with _ | ⟨c, body⟩
    · exact ⟨false, [], [], .none, rfl, rfl⟩
    by_cases hm : c = '-'
    · subst hm
      exact ⟨true, ['-'], body, .minus, rfl, rfl⟩
    by_cases hp : c = '+'
    · subst hp
      exact ⟨false, ['+'], body, .plus, rfl, rfl⟩
    · exact ⟨false, [], c :: body, .none, rfl, by simp [exponentPart?, hm, hp]⟩
  obtain ⟨negative, sign, body, hs, rfl, heq⟩ := hsign
  rw [heq] at h
  obtain ⟨hbody, hd⟩ := eq_append_of_spanDigits (Prod.eta (spanDigits body)).symm
  split at h
  · contradiction
  · rename_i hne
    obtain ⟨rfl, rfl⟩ := Prod.mk.inj (Option.some.inj h)
    refine ⟨e :: (sign ++ (spanDigits body).1), ?_, .some he hs ⟨fun hnil => ?_, hd⟩⟩
    · rw [List.cons_append, List.append_assoc, ← hbody]
    · simp [hnil] at hne

theorem fractionSpelled_of_fraction? {cs rest : List Char} {f : Option (List Char)}
    (h : fraction? cs = some (f, rest)) : ∃ w, cs = w ++ rest ∧ FractionSpelled f w := by
  unfold fraction? at h
  split at h
  · rename_i cs
    obtain ⟨hcs, hd⟩ := eq_append_of_spanDigits (Prod.eta (spanDigits cs)).symm
    dsimp only at h
    split at h
    · contradiction
    · rename_i hne
      cases h
      exact ⟨'.' :: (spanDigits cs).1, congrArg _ hcs, .some ⟨fun hnil => by simp [hnil] at hne, hd⟩⟩
  · cases h
    exact ⟨[], rfl, .none⟩

theorem exponentSpelled_of_exponent? {cs rest : List Char} {x : Option Exponent}
    (h : exponent? cs = some (x, rest)) : ∃ w, cs = w ++ rest ∧ ExponentSpelled x w := by
  cases cs with
  | nil =>
      cases h
      exact ⟨[], rfl, .none⟩
  | cons e cs =>
      by_cases he : e = 'e' ∨ e = 'E'
      · rw [exponent?, if_pos he] at h
        obtain ⟨⟨x, rest⟩, hx, hr⟩ := Option.map_eq_some_iff.mp h
        cases hr
        exact exponentSpelled_of_exponentPart? he hx
      · rw [exponent?, if_neg he] at h
        cases h
        exact ⟨[], rfl, .none⟩

theorem eq_append_of_spanSign {cs body : List Char} {negative : Bool}
    (h : spanSign cs = (negative, body)) : cs = (if negative then ['-'] else []) ++ body := by
  unfold spanSign at h
  split at h <;> cases h <;> rfl

/-- What is read as a number was written as one. -/
theorem spelled_of_numerals? {cs rest : List Char} {n : Numerals}
    (h : numerals? cs = some (n, rest)) : ∃ w, cs = w ++ rest ∧ Spelled n w := by
  unfold numerals? at h
  rcases hs : spanSign cs with ⟨negative, body⟩
  rcases hw : spanDigits body with ⟨whole, after⟩
  obtain ⟨rfl, hd⟩ := eq_append_of_spanDigits hw
  simp only [hs, hw] at h
  split at h
  · contradiction
  · rename_i hz
    simp only [Bool.or_eq_true, Bool.and_eq_true, List.isEmpty_iff, beq_iff_eq, decide_eq_true_eq,
      not_or, not_and] at hz
    simp only [bind, Option.bind_eq_some_iff] at h
    obtain ⟨⟨f, behind⟩, hf, ⟨x, last⟩, hx, he⟩ := h
    cases he
    obtain ⟨fraction, rfl, hfraction⟩ := fractionSpelled_of_fraction? hf
    obtain ⟨exponent, rfl, hexponent⟩ := exponentSpelled_of_exponent? hx
    refine ⟨_, ?_, .intro ⟨hz.1, hd⟩ (fun h0 => Nat.le_of_not_gt (hz.2 h0)) hfraction hexponent⟩
    rw [eq_append_of_spanSign hs]
    simp only [List.append_assoc]

/-! ### What is written so is read -/

theorem exponentPart?_of_spelled {negative : Bool} {sign ds rest : List Char}
    (hs : SignSpelled negative sign) (hd : Digits ds) (hr : Stops rest) :
    exponentPart? (sign ++ ds ++ rest) = some (⟨negative, ds⟩, rest) := by
  have hspan := spanDigits_append hd.2 fun c hc => hr.not_isDigit hc
  obtain ⟨d, ds, rfl⟩ := List.exists_cons_of_ne_nil hd.1
  have hdigit : d.isDigit = true := hd.2 d List.mem_cons_self
  have hm : d ≠ '-' := by rintro rfl; contradiction
  have hp : d ≠ '+' := by rintro rfl; contradiction
  simp only [List.cons_append] at hspan
  cases hs <;> simp [exponentPart?, hspan, hm, hp]

theorem exponent?_of_spelled {x : Option Exponent} {w rest : List Char} (h : ExponentSpelled x w)
    (hr : Stops rest) : exponent? (w ++ rest) = some (x, rest) := by
  cases h with
  | none =>
      cases rest with
      | nil => rfl
      | cons c rest =>
          have hc := hr c rfl
          have he : ¬ (c = 'e' ∨ c = 'E') := by
            rintro (rfl | rfl) <;> exact absurd hc (by decide)
          rw [List.nil_append, exponent?, if_neg he]
  | some he hs hd =>
      rw [List.cons_append, exponent?, if_pos he, exponentPart?_of_spelled hs hd hr]
      rfl

theorem fraction?_of_spelled {f : Option (List Char)} {w rest : List Char} (h : FractionSpelled f w)
    (hr : ∀ c, rest.head? = some c → c ≠ '.' ∧ c.isDigit = false) :
    fraction? (w ++ rest) = some (f, rest) := by
  cases h with
  | none =>
      cases rest with
      | nil => rfl
      | cons c rest => simp [fraction?, (hr c rfl).1]
  | some hd =>
      have hspan := spanDigits_append hd.2 fun c hc => (hr c hc).2
      simp [fraction?, hspan, hd.1]

theorem head_of_exponentSpelled {x : Option Exponent} {w rest : List Char} (h : ExponentSpelled x w)
    (hr : Stops rest) {c : Char} (hc : (w ++ rest).head? = some c) : c ≠ '.' ∧ c.isDigit = false := by
  cases h with
  | none =>
      refine ⟨?_, hr.not_isDigit hc⟩
      rintro rfl
      exact absurd (hr '.' hc) (by decide)
  | some he hs hd =>
      cases hc
      rcases he with rfl | rfl <;> decide

theorem head_of_fractionSpelled {f : Option (List Char)} {w rest : List Char} (h : FractionSpelled f w)
    (hr : ∀ c, rest.head? = some c → c.isDigit = false) {c : Char} (hc : (w ++ rest).head? = some c) :
    c.isDigit = false := by
  cases h with
  | none => exact hr c hc
  | some hd =>
      cases hc
      rfl

theorem spanSign_of_digits {ds : List Char} (hd : Digits ds) (negative : Bool) (rest : List Char) :
    spanSign ((if negative then ['-'] else []) ++ (ds ++ rest)) = (negative, ds ++ rest) := by
  obtain ⟨d, ds, rfl⟩ := List.exists_cons_of_ne_nil hd.1
  have hm : d ≠ '-' := by rintro rfl; exact absurd (hd.2 '-' List.mem_cons_self) (by decide)
  cases negative <;> simp [spanSign, hm]

/-- What is written as a number is read as one, where it stops. -/
theorem numerals?_of_spelled {n : Numerals} {w rest : List Char} (h : Spelled n w) (hr : Stops rest) :
    numerals? (w ++ rest) = some (n, rest) := by
  obtain ⟨hw, hz, hf, hx⟩ := h
  rename_i negative whole fraction exponent f x
  have hspan : spanDigits (whole ++ (fraction ++ (exponent ++ rest)))
      = (whole, fraction ++ (exponent ++ rest)) :=
    spanDigits_append hw.2 fun c hc =>
      head_of_fractionSpelled hf (fun d hd => (head_of_exponentSpelled hx hr hd).2) hc
  have hzero : (whole.isEmpty || (whole.head? == some '0' && decide (whole.length > 1))) = false := by
    by_cases h0 : whole.head? = some '0'
    · simp [hw.1, hz h0]
    · simp [hw.1, h0]
  simp only [numerals?, List.append_assoc, spanSign_of_digits hw, hspan, hzero,
    fraction?_of_spelled hf fun c hc => head_of_exponentSpelled hx hr hc, exponent?_of_spelled hx hr, bind,
    Option.bind_some, Bool.false_eq_true, if_false]

/-! ### Its characters -/

theorem isBareChar_of_spelled {n : Numerals} {w : List Char} (h : Spelled n w) :
    ∀ c ∈ w, isBareChar c = true := by
  obtain ⟨hw, -, hf, hx⟩ := h
  rename_i negative whole fraction exponent f x
  have hdigits : ∀ {ds : List Char}, Digits ds → ∀ c ∈ ds, isBareChar c = true :=
    fun hd c hc => isBareChar_of_isDigit (hd.2 c hc)
  have hfraction : ∀ c ∈ fraction, isBareChar c = true := by
    cases hf with
    | none => simp
    | some hd => exact List.forall_mem_cons.mpr ⟨by decide, hdigits hd⟩
  have hexponent : ∀ c ∈ exponent, isBareChar c = true := by
    cases hx with
    | none => simp
    | some he hs hd =>
        refine List.forall_mem_cons.mpr ⟨by rcases he with rfl | rfl <;> decide, ?_⟩
        refine List.forall_mem_append.mpr ⟨?_, hdigits hd⟩
        cases hs <;> exact List.all_eq_true.mp (by decide)
  refine List.forall_mem_append.mpr ⟨by cases negative <;> exact List.all_eq_true.mp (by decide), ?_⟩
  exact List.forall_mem_append.mpr ⟨hdigits hw, List.forall_mem_append.mpr ⟨hfraction, hexponent⟩⟩

theorem head_of_spelled {n : Numerals} {w : List Char} (h : Spelled n w) : ∃ c more, w = c :: more
    ∧ (c.isDigit = true ∨ c = '-' ∧ ∃ d more', more = d :: more' ∧ d.isDigit = true) := by
  obtain ⟨hw, -, -, -⟩ := h
  rename_i negative whole fraction exponent f x
  obtain ⟨d, ds, rfl⟩ := List.exists_cons_of_ne_nil hw.1
  have hd : d.isDigit = true := hw.2 d List.mem_cons_self
  cases negative with
  | false => exact ⟨d, _, rfl, .inl hd⟩
  | true => exact ⟨'-', _, rfl, .inr ⟨rfl, d, _, rfl, hd⟩⟩

theorem bare_of_spelled {n : Numerals} {w : List Char} (h : Spelled n w) : Bare w := by
  refine ⟨isBareChar_of_spelled h, ?_⟩
  obtain ⟨c, more, rfl, hc⟩ := head_of_spelled h
  exact ⟨c, more, rfl, hc.imp_left fun hd => by simp [Char.isAlphanum, hd]⟩

end Stencil.Json
