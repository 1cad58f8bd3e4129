import Stencil.Yaml.Conversion
import Stencil.Yaml.Value.Reader

/-!
# What words mean

A plain scalar that starts with a lower-case letter or an underscore is no number, so it means itself unless it is
one of the words for nothing and for the truth values. As a key it is told by its text in any case.

Main statements: `plainScalar?_of_startsWord` and `keyText?_wordValue`.
-/

namespace Stencil.Yaml

open Stencil.Decimal

/-- Whether a text starts with a lower-case letter or an underscore. -/
def StartsWord (cs : List Char) : Prop := ∃ c more, cs = c :: more ∧ (c.isLower = true ∨ c = '_')

def wordValue (s : String) : Value :=
  if s = "null" then .null
  else if s = "true" then .bool true
  else if s = "false" then .bool false
  else .string s

def wordJson (s : String) : Json :=
  if s = "null" then .null
  else if s = "true" then .bool true
  else if s = "false" then .bool false
  else .string s

variable {cs : List Char} {c : Char}

/-! ## Words are no numbers -/

/-- The characters that words do not start with: digits, signs, the point, and capital letters. -/
theorem StartsWord.ne (h : StartsWord (c :: cs)) {d : Char} (hd : d.isLower = false) (hu : d ≠ '_') : c ≠ d := by
  rintro rfl
  obtain ⟨e, more, he, hc⟩ := h
  obtain ⟨rfl, rfl⟩ := List.cons.inj he
  rcases hc with hc | hc
  · rw [hd] at hc
    contradiction
  · exact hu hc

theorem StartsWord.isDigit (h : StartsWord (c :: cs)) : c.isDigit = false := by
  rw [← Bool.not_eq_true]
  intro hd
  obtain ⟨e, more, he, hc⟩ := h
  obtain ⟨rfl, rfl⟩ := List.cons.inj he
  have hlower : c.isLower = (decide (c.val ≥ 97) && decide (c.val ≤ 122)) := rfl
  simp only [Char.isDigit, hlower, Bool.and_eq_true, decide_eq_true_eq, ge_iff_le,
    UInt32.le_iff_toNat_le] at hd hc
  rcases hc with hc | rfl
  · have h1 : 97 ≤ c.val.toNat := hc.1
    have h2 : c.val.toNat ≤ 57 := hd.2
    omega
  · exact absurd hd (by decide)

/-- A letter is no decimal digit, though it may be a hexadecimal one. -/
theorem ofDigitsIn?_of_startsWord (h : StartsWord (c :: cs)) : ofDigitsIn? 10 (c :: cs) = none := by
  have hdigit : ∀ d, hexDigit? c = some d → ¬ d < 10 := by
    intro d hd
    rw [hexDigit?, if_neg (by simp [h.isDigit])] at hd
    split at hd
    · have := Option.some.inj hd
      omega
    · split at hd
      · have := Option.some.inj hd
        omega
      · contradiction
  cases hd : hexDigit? c with
  | none => simp [ofDigitsIn?, hd, bind]
  | some d => simp [ofDigitsIn?, hd, hdigit d hd, bind]

theorem readInteger_of_startsWord (h : StartsWord (c :: cs)) : readInteger (c :: cs) = .none := by
  have hminus : c ≠ '-' := h.ne (by decide) (by decide)
  have hplus : c ≠ '+' := h.ne (by decide) (by decide)
  have hzero : c ≠ '0' := h.ne (by decide) (by decide)
  have hmagnitude : magnitude? (c :: cs) = none := by
    simp [magnitude?, isPadded, hminus, hplus, hzero, ofDigitsIn?_of_startsWord h]
  simp [readInteger, integer?, hminus, hplus, hmagnitude]

/-- The only floating-point numbers that words spell are not finite. -/
theorem filter_float?_of_startsWord (h : StartsWord (c :: cs)) : (float? (c :: cs)).filter Float.isFinite = none := by
  have hpoint : c ≠ '.' := h.ne (by decide) (by decide)
  have hminus : c ≠ '-' := h.ne (by decide) (by decide)
  have hplus : c ≠ '+' := h.ne (by decide) (by decide)
  have hinf : (Float.ofBits 0x7FF0000000000000).isFinite = false := by decide
  have hnan : (Float.ofBits 0x7FF8000000000000).isFinite = false := by decide
  have hnumeral : Numeral.ofText? (c :: cs) = none := by
    simp [Numeral.ofText?, spanDigits, h.isDigit, hpoint]
  unfold float?
  split
  · rename_i he
    exact absurd (List.cons.inj he).1 hminus
  · rename_i he
    exact absurd (List.cons.inj he).1 hplus
  · simp only [hnumeral]
    split
    · simp only [Option.filter_some, hinf, Bool.false_eq_true, if_false]
    · split
      · simp only [Option.filter_some, hnan, Bool.false_eq_true, if_false]
      · rfl

theorem floating?_of_startsWord (h : StartsWord (c :: cs)) : floating? (c :: cs) = none := by
  have hne : ∀ s : String, s.toList.head? ∈ [some '.', some '+', some '-'] → String.ofList (c :: cs) ≠ s := by
    rintro s hs rfl
    simp only [String.toList_ofList, List.head?_cons, List.mem_cons, Option.some.injEq, List.not_mem_nil,
      or_false] at hs
    rcases hs with hs | hs | hs <;> exact h.ne (by decide) (by decide) hs
  unfold floating?
  simp only
  rw [if_neg, if_neg, if_neg, filter_float?_of_startsWord h]
  all_goals
    simp only [not_or]
    repeat' apply And.intro
  all_goals exact hne _ (by decide)

theorem readNumber_of_startsWord (h : StartsWord (c :: cs)) : readNumber (c :: cs) = .none := by
  simp [readNumber, readInteger_of_startsWord h, floating?_of_startsWord h]

/-! ## Words as values and as keys -/

/-- **A word means itself**, unless it is one for nothing or for a truth value. -/
theorem plainScalar?_of_startsWord {w : List Char} (h : StartsWord w) :
    plainScalar? (String.ofList w) = some (wordValue (String.ofList w)) := by
  obtain ⟨c, cs, rfl, hc⟩ := h
  have hword : StartsWord (c :: cs) := ⟨c, cs, rfl, hc⟩
  have hne : ∀ s : String, s.toList.head?.all (fun d => !d.isLower && d != '_') = true → String.ofList (c :: cs) ≠ s := by
    rintro s hs rfl
    rcases hc with hc | hc <;> simp [hc] at hs
  have hempty : String.ofList (c :: cs) ≠ "" := hne "" (by decide)
  generalize hs : String.ofList (c :: cs) = s at hne hempty
  have hlist : s.toList = c :: cs := by rw [← hs, String.toList_ofList]
  by_cases hnull : s = "null"
  · subst hnull
    rfl
  by_cases htrue : s = "true"
  · subst htrue
    rfl
  by_cases hfalse : s = "false"
  · subst hfalse
    rfl
  have hwords : isNullWord s = false := by
    simp [isNullWord, hnull, hne "~" (by decide), hne "Null" (by decide), hne "NULL" (by decide)]
  have htruth : truth? s = none := by
    simp [truth?, htrue, hfalse, hne "True" (by decide), hne "TRUE" (by decide), hne "False" (by decide),
      hne "FALSE" (by decide)]
  simp [plainScalar?, wordValue, hempty, hwords, htruth, hlist, readNumber_of_startsWord hword, hnull, htrue, hfalse]

/-- **As a key a word is told by its text.** -/
theorem keyText?_wordValue (s : String) : keyText? (wordValue s) = some s := by
  unfold wordValue
  split
  · rename_i h
    rw [h]
    rfl
  split
  · rename_i h
    rw [h]
    rfl
  split
  · rename_i h
    rw [h]
    rfl
  · rfl

theorem toJson_wordValue (s : String) : (wordValue s).toJson = .ok (wordJson s) := by
  unfold wordValue wordJson
  repeat' split
  all_goals rfl

/-- Two words are the same key only if they are the same word. -/
theorem same_wordValue {s t : String} (h : (wordValue s).same (wordValue t) = true) : s = t := by
  unfold wordValue at h
  repeat' split at h
  all_goals simp_all [Value.same]

/-- Words that are distinct are distinct keys. -/
theorem distinctKeys_wordValue {α : Type} {name : α → String} {es : List α} (h : (es.map name).Nodup)
    (value : α → Value) : distinctKeys (es.map fun e => (wordValue (name e), value e)) = true := by
  induction es with
  | nil => rfl
  | cons e es ih =>
      rw [List.map_cons, List.nodup_cons] at h
      simp only [List.map_cons, distinctKeys, Bool.and_eq_true, Bool.not_eq_true', List.any_eq_false]
      refine ⟨fun f hf hsame => ?_, ih h.2⟩
      obtain ⟨g, hg, rfl⟩ := List.mem_map.mp hf
      exact h.1 (same_wordValue hsame ▸ List.mem_map_of_mem hg)

end Stencil.Yaml
