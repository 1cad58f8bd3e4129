import Stencil.Proofs.Json.Reading
import Stencil.Yaml.Token.Flow

/-!
# Scalars of JSON in YAML

The strings of JSON are double-quoted scalars of YAML, and its words and numbers are plain scalars. YAML need
not read such a scalar, and need not read the same from it; but where it reads one, the scalar ends where it
ends in JSON.

Main statements: `rest_of_doubleQuoted` and `rest_of_plain`.
-/

namespace Stencil.Yaml

open Stencil.Decimal

/-! ## Strings -/

variable {cs rest r s t : List Char} {c : Char} {flow : Bool}

/-- What the letter after a backslash calls for in JSON is a character in YAML too. -/
theorem exists_char_of_escapeLetter? {x : Char} (h : Json.escapeLetter? c = some x) :
    isBreak c = false ∧ c ≠ '\r' ∧ ∃ y, Escape.ofLetter? c = some (.char y) := by
  unfold Json.escapeLetter? at h
  repeat' split at h
  all_goals first | contradiction | (subst c; exact ⟨by decide, by decide, _, rfl⟩)

theorem digits_of_hex4? {a b d e : Char} {n : Nat} (h : Json.hex4? a b d e = some n) :
    ∃ w x y z, hexDigit? a = some w ∧ hexDigit? b = some x ∧ hexDigit? d = some y
      ∧ hexDigit? e = some z ∧ n = 16 * (16 * (16 * (16 * 0 + w) + x) + y) + z := by
  simp only [Json.hex4?, ofDigitsIn?, List.isEmpty_cons, Bool.false_eq_true, if_false, List.foldlM,
    bind, Option.bind_eq_some_iff] at h
  obtain ⟨n1, ⟨w, hw, h1⟩, n2, ⟨x, hx, h2⟩, n3, ⟨y, hy, h3⟩, n4, ⟨z, hz, h4⟩, h⟩ := h
  have htake : ∀ {v m k : Nat}, (if v < 16 then some (16 * m + v) else none) = some k →
      k = 16 * m + v := by
    intro v m k hk
    split at hk
    · exact (Option.some.inj hk).symm
    · contradiction
  refine ⟨w, x, y, z, hw, hx, hy, hz, ?_⟩
  rw [← Option.some.inj h, htake h4, htake h3, htake h2, htake h1]

/-- The digits of a code point are taken one by one. -/
theorem doubleQuoted_code {a b d e : Char} {n : Nat} (h : Json.hex4? a b d e = some n) (cs : List Char) :
    doubleQuoted (.code 4 0) (a :: b :: d :: e :: cs)
      = (charOfCode? n).bind fun x => (doubleQuoted (.text .empty) cs).map fun p => (x :: p.1, p.2) := by
  obtain ⟨w, x, y, z, hw, hx, hy, hz, rfl⟩ := digits_of_hex4? h
  simp only [doubleQuoted, hw, hx, hy, hz]
  cases charOfCode? (16 * (16 * (16 * (16 * 0 + w) + x) + y) + z) <;> simp

theorem charOfCode?_of_isSurrogate {n : Nat} (h : Json.IsSurrogate n) : charOfCode? n = none := by
  unfold Json.IsSurrogate at h
  rw [charOfCode?, if_neg]
  unfold Nat.isValidChar
  omega

theorem rest_of_escape {gap : Gap} (h : doubleQuoted (.text gap) ('\\' :: cs) = some (t, r)) :
    ∃ t, doubleQuoted .escape cs = some (t, r) := by
  simp [doubleQuoted, returnsBeforeNewline, isBlank, isBreak, meetsDocumentMark,
    startsDocumentMark] at h
  obtain ⟨t, ht, -⟩ := h
  exact ⟨t, ht⟩

theorem rest_of_code {a b d e : Char} {n : Nat} (hn : Json.hex4? a b d e = some n)
    (h : doubleQuoted .escape ('u' :: a :: b :: d :: e :: cs) = some (t, r)) :
    charOfCode? n ≠ none ∧ ∃ t, doubleQuoted (.text .empty) cs = some (t, r) := by
  have hstep : doubleQuoted .escape ('u' :: a :: b :: d :: e :: cs)
      = doubleQuoted (.code 4 0) (a :: b :: d :: e :: cs) := by
    rw [doubleQuoted]
    rfl
  rw [hstep, doubleQuoted_code hn] at h
  obtain ⟨x, hx, h⟩ := Option.bind_eq_some_iff.mp h
  obtain ⟨⟨t, r⟩, ht, he⟩ := Option.map_eq_some_iff.mp h
  cases he
  exact ⟨by simp [hx], t, ht⟩

/-- **A string ends at the same quote.** -/
theorem rest_of_doubleQuoted (h : Json.Body cs s rest) {gap : Gap}
    (hr : doubleQuoted (.text gap) cs = some (t, r)) : r = rest := by
  induction h generalizing gap t with
  | close =>
      simp [doubleQuoted, returnsBeforeNewline, isBlank, isBreak, meetsDocumentMark,
        startsDocumentMark] at hr
      exact hr.2.symm
  | char hl hq hb h ih =>
      rename_i c cs s rest
      have hreturn : returnsBeforeNewline c cs = false := by
        have hne : c ≠ '\r' := by rintro rfl; exact absurd hl (by decide)
        simp [returnsBeforeNewline, hne]
      -- Whether it lengthens a gap or ends one, no character but the quote ends the string.
      unfold doubleQuoted at hr
      simp only [hreturn, hq, hb, Bool.false_eq_true, if_false] at hr
      split at hr
      · exact ih hr
      split at hr
      · exact ih hr
      split at hr
      · contradiction
      · obtain ⟨⟨t, r⟩, ht, he⟩ := Option.map_eq_some_iff.mp hr
        cases he
        exact ih ht
  | letter hx h ih =>
      obtain ⟨hb, hreturn, y, hy⟩ := exists_char_of_escapeLetter? hx
      obtain ⟨t, ht⟩ := rest_of_escape hr
      simp [doubleQuoted, returnsBeforeNewline, hb, hreturn, hy] at ht
      obtain ⟨t, ht, -⟩ := ht
      exact ih ht
  | code hn hs h ih =>
      obtain ⟨t, ht⟩ := rest_of_escape hr
      obtain ⟨-, t, ht⟩ := rest_of_code hn ht
      exact ih ht
  | pair hn hm hl hu h ih =>
      obtain ⟨t, ht⟩ := rest_of_escape hr
      -- Half of a pair is no character on its own, so there is no rest to compare.
      obtain ⟨hc, -⟩ := rest_of_code hn ht
      exact absurd (charOfCode?_of_isSurrogate ⟨hl.1, by omega⟩) hc

/-! ## Words and numbers -/

/-- What may stand behind a word or a number: white space, then the end of the text or, inside brackets, a mark
that ends the scalar. -/
def Closed (flow : Bool) (cs : List Char) : Prop :=
  Json.skipSpace cs = [] ∨ flow = true ∧ ∃ c more, Json.skipSpace cs = c :: more ∧ isFlowIndicator c = true

theorem Closed.of_space (hc : Closed flow (c :: cs)) (hs : Json.isSpace c = true) : Closed flow cs := by
  unfold Closed at hc ⊢
  rwa [Json.skipSpace_cons, if_pos hs] at hc

/-- A mark between brackets ends a plain scalar. -/
theorem rest_of_plain_mark {margin : Nat} {gap : Gap} {afterGap : Bool} {p : Plain}
    (hc : isFlowIndicator c = true) (h : plain true margin gap afterGap (c :: cs) = some p) :
    p.rest = c :: cs := by
  have hne : isBlank c = false ∧ isBreak c = false ∧ c ≠ '\r' ∧ c ≠ '#' ∧ c ≠ ':' := by
    simp only [isFlowIndicator, Bool.or_eq_true, beq_iff_eq] at hc
    rcases hc with (((rfl | rfl) | rfl) | rfl) | rfl <;> decide
  obtain ⟨hblank, hbreak, hreturn, hnumber, hcolon⟩ := hne
  simp [plain, returnsBeforeNewline, hblank, hbreak, hreturn, hnumber, hcolon, strayColon,
    endsPlain, hc] at h
  rw [← h]

/-- White space is passed over up to the mark behind it. -/
theorem rest_of_plain_space {margin : Nat} {gap : Gap} {afterGap : Bool} {p : Plain}
    (hc : Closed flow cs) (h : plain flow margin gap afterGap cs = some p) :
    p.rest = Json.skipSpace cs := by
  induction cs generalizing gap afterGap with
  | nil =>
      cases h
      rfl
  | cons c cs ih =>
      by_cases hs : Json.isSpace c = true
      · have ih' : ∀ {gap afterGap}, plain flow margin gap afterGap cs = some p →
            p.rest = Json.skipSpace cs := fun h => ih (hc.of_space hs) h
        rw [Json.skipSpace_cons, if_pos hs]
        simp only [Json.isSpace, Bool.or_eq_true, beq_iff_eq] at hs
        unfold plain at h
        split at h
        · exact ih' h
        split at h
        · split at h
          · contradiction
          · exact ih' h
        split at h
        · exact ih' h
        · rcases hs with ((rfl | rfl) | rfl) | rfl <;> simp [isBlank, isBreak] at *
      · unfold Closed at hc
        rw [Json.skipSpace_cons, if_neg hs] at hc ⊢
        rcases hc with hc | ⟨rfl, d, more, hd, hc⟩
        · contradiction
        · obtain ⟨rfl, -⟩ := List.cons.inj hd
          exact rest_of_plain_mark hc h

/-- No character of a word or a number has another meaning in YAML, but for a minus sign in front. -/
theorem solid_of_isBareChar (h : Json.isBareChar c = true) :
    isGap c = false ∧ c ≠ '\r' ∧ c ≠ '#' ∧ c ≠ ':' ∧ isFlowIndicator c = false := by
  have hb := Json.bounds_of_isBareChar h
  have hne : ∀ d : Char, Json.isBareChar d = false → c ≠ d := by
    rintro d hd rfl
    rw [h] at hd
    contradiction
  have hbreak : isBreak c = false := by
    simp only [isBreak, Bool.or_eq_false_iff, beq_eq_false_iff_ne]
    refine ⟨⟨⟨⟨hne _ (by decide), hne _ (by decide)⟩, ?_⟩, ?_⟩, ?_⟩ <;> omega
  refine ⟨?_, hne _ (by decide), hne _ (by decide), hne _ (by decide), ?_⟩
  · simp [isGap, isBlank, hbreak, hne ' ' (by decide), hne '\t' (by decide)]
  · simp [isFlowIndicator, hne ',' (by decide), hne '[' (by decide), hne ']' (by decide),
      hne '\x7b' (by decide), hne '\x7d' (by decide)]

/-- **A word or a number ends in front of the same mark.** -/
theorem rest_of_plain {w : List Char} (hw : ∀ c ∈ w, Json.isBareChar c = true) {margin : Nat}
    {afterGap : Bool} {p : Plain} (hc : Closed flow rest)
    (h : plain flow margin .empty afterGap (w ++ rest) = some p) : p.rest = Json.skipSpace rest := by
  induction w generalizing afterGap p with
  | nil => exact rest_of_plain_space hc h
  | cons c w ih =>
      obtain ⟨hg, hreturn, hnumber, hcolon, hf⟩ := solid_of_isBareChar (hw c List.mem_cons_self)
      simp only [isGap, Bool.or_eq_false_iff] at hg
      simp [plain, returnsBeforeNewline, hg, hreturn, hnumber, hcolon, strayColon, endsPlain, hf,
        leavesPlain] at h
      obtain ⟨p, hp, rfl⟩ := h
      show p.rest = _
      exact ih (fun d hd => hw d (List.mem_cons_of_mem c hd)) hp

end Stencil.Yaml
