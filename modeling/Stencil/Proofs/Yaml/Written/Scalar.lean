import Stencil.Proofs.Json.Written
import Stencil.Proofs.Yaml.Behind.Character
import Stencil.Proofs.Yaml.Brackets
import Stencil.Proofs.Yaml.Inline
import Stencil.Proofs.Yaml.Scalar

/-!
# Written scalars of JSON

What YAML makes of a string, a word or a number that is written in JSON. A string cannot be read where a character
is written as a pair of surrogates, or where the end of a line is followed by a mark between documents; the ends of
lines are folded. A word or a number is always taken as it stands, but an integer that does not fit 64 bits is
refused as long as it fits 128.

Main statements: `doubleQuoted_body`, `plain_literal` and `isSome_plainScalar?`.
-/

namespace Stencil.Yaml

open Stencil.Json (Glyph Quoted Literal)
open Lexer (Followed)

/-! ## Strings -/

/-- Whether a character is written as a pair of surrogates, of which YAML makes none. -/
def isPair : Glyph → Bool
  | .pair .. => true
  | _ => false

/-- Whether a character stands for itself and ends a line of YAML. -/
def endsLine : Glyph → Bool
  | .char c .. => isBreak c
  | _ => false

/-- Whether the end of a line is followed by a mark between documents. -/
def meetsMark : Quoted → Bool
  | [] => false
  | g :: q => (endsLine g && startsDocumentMark (Quoted.body q ++ ['"'])) || meetsMark q

/-- Whether YAML can read a string: it holds no pair of surrogates, and no mark between documents behind the end
of a line. -/
def isReadable (q : Quoted) : Bool := !(q.any isPair || meetsMark q)

/-- What the rest of a string says behind some white space when the ends of lines are folded. -/
def folded (gap : Gap) : Quoted → List Char
  | [] => gap.text
  | .char c .. :: q =>
      if isBlank c then folded (gap.addBlank c) q
      else if isBreak c then folded (gap.addBreak c) q
      else gap.text ++ c :: folded .empty q
  | g :: q => gap.text ++ g.says :: folded .empty q

variable {c x : Char} {gap : Gap} {cs rest : List Char}

/-- A quote ends what could be a mark between documents. -/
theorem startsDocumentMark_append_quote (cs rest : List Char) :
    startsDocumentMark (cs ++ '"' :: rest) = startsDocumentMark (cs ++ ['"']) := by
  match cs with
  | [] | [_] | [_, _] => simp [startsDocumentMark]
  | [_, _, _] | _ :: _ :: _ :: _ :: _ => simp [startsDocumentMark_cons, startsGap]

theorem startsDocumentMark_of_ne (hm : c ≠ '-') (hp : c ≠ '.') (cs : List Char) :
    startsDocumentMark (c :: cs) = false := by
  unfold startsDocumentMark
  split
  · rename_i he; exact absurd (List.cons.inj he).1 hm
  · rename_i he; exact absurd (List.cons.inj he).1 hp
  · rfl

theorem meetsDocumentMark_empty (cs : List Char) : meetsDocumentMark .empty cs = false := rfl

/-- A backslash in a string. -/
theorem doubleQuoted_backslash (gap : Gap) (cs : List Char) :
    doubleQuoted (.text gap) ('\\' :: cs)
      = (doubleQuoted .escape cs).map fun p => (gap.text ++ p.1, p.2) := by
  have hmark : meetsDocumentMark gap ('\\' :: cs) = false := by
    simp [meetsDocumentMark, startsDocumentMark_of_ne]
  rw [doubleQuoted]
  simp [returnsBeforeNewline, isBlank, isBreak, hmark]

theorem doubleQuoted_letter (hx : Json.escapeLetter? c = some x) (cs : List Char) :
    doubleQuoted .escape (c :: cs) = (doubleQuoted (.text .empty) cs).map fun p => (x :: p.1, p.2) := by
  have hletter : Escape.ofLetter? c = some (.char x) ∧ isBreak c = false ∧ c ≠ '\r' := by
    unfold Json.escapeLetter? at hx
    repeat' split at hx
    all_goals first
      | contradiction
      | (subst c; cases hx; exact ⟨rfl, by decide, by decide⟩)
  rw [doubleQuoted]
  simp [returnsBeforeNewline, hletter]

theorem lt_of_hex4? {a b d e : Char} {n : Nat} (h : Json.hex4? a b d e = some n) : n < 0x10000 := by
  simp only [Json.hex4?, Decimal.ofDigitsIn?, List.isEmpty_cons, Bool.false_eq_true, if_false, List.foldlM,
    bind, Option.bind_eq_some_iff] at h
  obtain ⟨n1, ⟨w, -, h1⟩, n2, ⟨x, -, h2⟩, n3, ⟨y, -, h3⟩, n4, ⟨z, -, h4⟩, h⟩ := h
  have htake : ∀ {v m k : Nat}, (if v < 16 then some (16 * m + v) else none) = some k → k < 16 * (m + 1) := by
    intro v m k hk
    split at hk
    · cases hk
      omega
    · contradiction
  have h1 := htake h1
  have h2 := htake h2
  have h3 := htake h3
  have h4 := htake h4
  have hn : n4 = n := Option.some.inj h
  omega

theorem charOfCode?_of_hex4? {a b d e : Char} {n : Nat} (h : Json.hex4? a b d e = some n)
    (hs : ¬ Json.IsSurrogate n) : charOfCode? n = some (Char.ofNat n) := by
  have hlt := lt_of_hex4? h
  have hvalid : n.isValidChar := by
    unfold Json.IsSurrogate at hs
    unfold Nat.isValidChar
    omega
  rw [charOfCode?, if_pos hvalid]

/-- The digits of a code point behind a backslash. -/
theorem doubleQuoted_unicode {a b d e : Char} {n : Nat} (h : Json.hex4? a b d e = some n) (cs : List Char) :
    doubleQuoted .escape ('u' :: a :: b :: d :: e :: cs)
      = (charOfCode? n).bind fun x => (doubleQuoted (.text .empty) cs).map fun p => (x :: p.1, p.2) := by
  rw [← doubleQuoted_code h, doubleQuoted]
  rfl

/-- Whether a character is written with a backslash. -/
def isEscaped : Glyph → Bool
  | .char .. => false
  | _ => true

/-- An escaped character, unless it is a pair of surrogates. -/
theorem doubleQuoted_escaped {g : Glyph} (h : isEscaped g = true) (gap : Gap) (cs : List Char) :
    doubleQuoted (.text gap) (g.text ++ cs)
      = if isPair g then none
        else (doubleQuoted (.text .empty) cs).map fun p => (gap.text ++ g.says :: p.1, p.2) := by
  cases g with
  | char => contradiction
  | letter c x hx =>
      simp only [Glyph.text, List.cons_append, List.nil_append]
      rw [doubleQuoted_backslash, doubleQuoted_letter hx, Option.map_map]
      rfl
  | code a b d e n hn hs =>
      simp only [Glyph.text, List.cons_append, List.nil_append]
      rw [doubleQuoted_backslash, doubleQuoted_unicode hn, charOfCode?_of_hex4? hn hs, Option.bind_some,
        Option.map_map]
      rfl
  | pair a b d e f g i j n m hn hm hl hu =>
      have hsurrogate : Json.IsSurrogate n := ⟨hl.1, Nat.lt_trans hl.2 (by decide)⟩
      simp only [Glyph.text, List.cons_append, List.nil_append]
      rw [doubleQuoted_backslash, doubleQuoted_unicode hn, charOfCode?_of_isSurrogate hsurrogate]
      rfl

theorem meetsDocumentMark_escaped {g : Glyph} (h : isEscaped g = true) (gap : Gap) (cs : List Char) :
    meetsDocumentMark gap (g.text ++ cs) = false := by
  cases g with
  | char => contradiction
  | letter | code | pair => simp [Glyph.text, meetsDocumentMark, startsDocumentMark_of_ne]

/-- A character that stands for itself. -/
theorem doubleQuoted_char (hl : 0x20 ≤ c.toNat) (hq : c ≠ '"') (hb : c ≠ '\\') (gap : Gap) (cs : List Char) :
    doubleQuoted (.text gap) (c :: cs)
      = if isBlank c then doubleQuoted (.text (gap.addBlank c)) cs
        else if isBreak c then doubleQuoted (.text (gap.addBreak c)) cs
        else if meetsDocumentMark gap (c :: cs) then none
        else (doubleQuoted (.text .empty) cs).map fun p => (gap.text ++ c :: p.1, p.2) := by
  have hne : c ≠ '\r' := by
    rintro rfl
    exact absurd hl (by decide)
  rw [doubleQuoted]
  simp [returnsBeforeNewline, hne, hq, hb]

theorem meetsDocumentMark_of_isGap (h : isGap c = true) (gap : Gap) (cs : List Char) :
    meetsDocumentMark gap (c :: cs) = false := by
  have hne : ∀ d : Char, isGap d = false → c ≠ d := by
    rintro d hd rfl
    rw [h] at hd
    contradiction
  simp [meetsDocumentMark, startsDocumentMark_of_ne (hne '-' (by decide)) (hne '.' (by decide))]

theorem meetsDocumentMark_addBlank (gap : Gap) (c : Char) (cs : List Char) :
    meetsDocumentMark (gap.addBlank c) cs = false := by
  simp [meetsDocumentMark, column?_addBlank_ne]

theorem meetsDocumentMark_addBreak (gap : Gap) (c : Char) (cs : List Char) :
    meetsDocumentMark (gap.addBreak c) cs = startsDocumentMark cs := by
  cases gap <;> simp [meetsDocumentMark, Gap.addBreak, Gap.column?]

/-- **A string is read unless it holds a pair of surrogates or runs into a mark**, up to its quote. -/
theorem doubleQuoted_body (q : Quoted) (gap : Gap) (rest : List Char) :
    doubleQuoted (.text gap) (q.body ++ '"' :: rest)
      = if q.any isPair || meetsMark q || meetsDocumentMark gap (q.body ++ ['"']) then none
        else some (folded gap q, rest) := by
  induction q generalizing gap with
  | nil =>
      have hmark : ∀ cs, meetsDocumentMark gap ('"' :: cs) = false := by
        simp [meetsDocumentMark, startsDocumentMark_of_ne]
      simp [Quoted.body, doubleQuoted, returnsBeforeNewline, isBlank, isBreak, hmark, meetsMark, folded]
  | cons g q ih =>
      rw [Quoted.body_cons, List.append_assoc, List.append_assoc, List.any_cons, meetsMark]
      -- What is escaped ends the gap and is never white space. A character that stands for itself may belong to
      -- the gap.
      by_cases hg : isEscaped g = true
      · have hline : endsLine g = false := by cases g <;> first | rfl | contradiction
        have hfolded : folded gap (g :: q) = gap.text ++ g.says :: folded .empty q := by
          cases g <;> first | rfl | contradiction
        rw [doubleQuoted_escaped hg, meetsDocumentMark_escaped hg, ih, meetsDocumentMark_empty, hfolded, hline]
        cases isPair g
        · cases q.any isPair <;> cases meetsMark q <;> rfl
        · rfl
      · cases g with
        | letter | code | pair => exact absurd rfl hg
        | char c hl hq hb =>
            simp only [Glyph.text, List.singleton_append, isPair, Bool.false_or, endsLine]
            rw [doubleQuoted_char hl hq hb, folded]
            by_cases hblank : isBlank c = true
            · have hbreak : isBreak c = false := by
                simp only [isBlank, Bool.or_eq_true, beq_iff_eq] at hblank
                rcases hblank with rfl | rfl <;> decide
              have hgap : isGap c = true := by simp [isGap, hblank]
              simp only [hblank, hbreak, ih, meetsDocumentMark_addBlank, meetsDocumentMark_of_isGap hgap,
                Bool.false_and, Bool.false_or, if_true]
            rw [Bool.not_eq_true] at hblank
            by_cases hbreak : isBreak c = true
            · have hgap : isGap c = true := by simp [isGap, hbreak]
              simp only [hblank, hbreak, ih, meetsDocumentMark_addBreak, meetsDocumentMark_of_isGap hgap,
                Bool.true_and, Bool.or_false, if_true, Bool.or_assoc, Bool.or_comm (meetsMark q)]
              rfl
            · rw [Bool.not_eq_true] at hbreak
              -- Whether a mark starts here is seen from what stands up to the quote.
              have hquote : meetsDocumentMark gap (c :: (Quoted.body q ++ '"' :: rest))
                  = meetsDocumentMark gap (c :: (Quoted.body q ++ ['"'])) :=
                congrArg (gap.column? == some 0 && ·) (startsDocumentMark_append_quote (c :: Quoted.body q) rest)
              simp only [hblank, hbreak, hquote, ih, meetsDocumentMark_empty, Bool.false_and, Bool.false_or,
                Bool.or_false, Bool.false_eq_true, if_false]
              cases q.any isPair <;> cases meetsMark q <;>
                cases meetsDocumentMark gap (c :: (Quoted.body q ++ ['"'])) <;> rfl

/-- **On one line a string says what it says in JSON.** -/
theorem folded_of_line {q : Quoted} (h : ∀ c ∈ q.body, isBreak c = false) (b : List Char) :
    folded (.blanks b) q = b ++ q.says := by
  induction q generalizing b with
  | nil => simp [folded, Gap.text, Quoted.says]
  | cons g q ih =>
      rw [Quoted.body_cons, List.forall_mem_append] at h
      have ih := ih h.2
      have hnext : folded .empty q = Quoted.says q := ih []
      cases g with
      | letter | code | pair => simp [folded, Gap.text, hnext]
      | char c hl hq hb =>
          have hbreak : isBreak c = false := h.1 c List.mem_cons_self
          by_cases hblank : isBlank c = true
          · simp [folded, hblank, Gap.addBlank, ih, Glyph.says]
          · simp [folded, hblank, hbreak, Gap.text, hnext, Glyph.says]

/-! ## Words and numbers -/

/-- White space between brackets ends a plain scalar at the mark behind it. -/
theorem exists_plain_of_followed (hf : Followed rest) (gap : Gap) (afterGap : Bool) :
    ∃ broken, plain true 0 gap afterGap rest = some ⟨[], Json.skipSpace rest, broken⟩ := by
  obtain ⟨mark, more, hs, hmark⟩ := hf
  induction rest generalizing gap afterGap with
  | nil => contradiction
  | cons c rest ih =>
      rw [Json.skipSpace_cons] at hs ⊢
      by_cases hc : Json.isSpace c = true
      · rw [if_pos hc] at hs ⊢
        simp only [Json.isSpace, Bool.or_eq_true, beq_iff_eq] at hc
        rcases hc with ((rfl | rfl) | rfl) | rfl
        · exact ih (gap.addBlank ' ') true hs
        · have htab : plain true 0 gap afterGap ('\t' :: rest) = plain true 0 (gap.addBlank '\t') true rest := by
            simp [plain, returnsBeforeNewline, isBlank]
          exact htab ▸ ih _ _ hs
        · exact ih (gap.addBreak '\n') true hs
        · -- A return in front of a line end is not a break of its own.
          by_cases hr : returnsBeforeNewline '\r' rest = true
          · simp only [plain, hr, if_true]
            exact ih gap true hs
          · simp only [plain, hr]
            exact ih (gap.addBreak '\r') true hs
      · rw [if_neg hc] at hs ⊢
        obtain ⟨rfl, rfl⟩ := List.cons.inj hs
        have hend : ∃ broken, plain true 0 gap afterGap (c :: rest) = some ⟨[], c :: rest, broken⟩ := by
          have hne : isBlank c = false ∧ isBreak c = false ∧ c ≠ '\r' ∧ c ≠ '#' ∧ c ≠ ':' := by
            simp only [isFlowIndicator, Bool.or_eq_true, beq_iff_eq] at hmark
            rcases hmark with (((rfl | rfl) | rfl) | rfl) | rfl <;> decide
          obtain ⟨hblank, hbreak, hreturn, hnumber, hcolon⟩ := hne
          refine ⟨gap.isBroken, ?_⟩
          rw [plain]
          simp [returnsBeforeNewline, hblank, hbreak, hreturn, hnumber, hcolon, strayColon, endsPlain, hmark]
        exact hend

/-- **A word or a number is taken as it stands.** -/
theorem plain_literal (w : Literal) (hf : Followed rest) :
    ∃ broken, plain true 0 .empty false (w.chars ++ rest) = some ⟨w.chars, Json.skipSpace rest, broken⟩ := by
  have hinner : ∀ c ∈ w.chars, IsInner c := fun c hc => isInner_of_isBareChar (w.bare.char c hc)
  have hlast : ∃ c, w.chars.getLast? = some c ∧ c ≠ ' ' := by
    obtain ⟨c, more, hchars, -⟩ := w.bare.head
    have hne : w.chars ≠ [] := by simp [hchars]
    refine ⟨_, List.getLast?_eq_some_getLast hne, fun he => ?_⟩
    have hgap := (hinner _ (List.getLast_mem hne)).gap
    rw [he] at hgap
    contradiction
  obtain ⟨broken, hrest⟩ := exists_plain_of_followed hf .empty false
  refine ⟨broken, ?_⟩
  rw [Gap.empty, plain_append (fun c hc => .inr (hinner c hc)) hlast, hrest]
  simp

/-- Whether a text spells an integer that fits 128 bits but not 64. -/
def isOversized (cs : List Char) : Bool := (integer? cs).any fun n => !fitsWord n && fitsDoubleWord n

theorem readNumber_eq_outOfRange_iff (cs : List Char) : readNumber cs = .outOfRange ↔ isOversized cs = true := by
  have hnone : readInteger cs = .none → readNumber cs ≠ .outOfRange := by
    intro h
    simp only [readNumber, h]
    split
    · simp
    · split <;> simp
  cases hi : integer? cs with
  | none => simp [hnone (by simp [readInteger, hi]), isOversized, hi]
  | some n =>
      cases hw : fitsWord n with
      | true => simp [readNumber, readInteger, isOversized, hi, hw]
      | false =>
          cases hd : fitsDoubleWord n with
          | true => simp [readNumber, readInteger, isOversized, hi, hw, hd]
          | false => simp [hnone (by simp [readInteger, hi, hw, hd]), isOversized, hi, hd]

/-- **A plain scalar is refused if it is an integer that fits 128 bits but not 64.** -/
theorem isSome_plainScalar? (text : String) : (plainScalar? text).isSome = !isOversized text.toList := by
  unfold plainScalar?
  split
  · rename_i hnull
    simp only [isNullWord, Bool.or_eq_true, beq_iff_eq] at hnull
    rcases hnull with rfl | ((rfl | rfl) | rfl) | rfl <;> rfl
  split
  · rename_i b htruth
    unfold truth? at htruth
    split at htruth
    · rename_i hw
      rcases hw with rfl | rfl | rfl <;> rfl
    split at htruth
    · rename_i hw
      rcases hw with rfl | rfl | rfl <;> rfl
    · contradiction
  · have hrange := readNumber_eq_outOfRange_iff text.toList
    cases hr : readNumber text.toList with
    | outOfRange => simp [hrange.mp hr]
    | none | some =>
        have hfits : isOversized text.toList = false := by
          rw [← Bool.not_eq_true, ← hrange, hr]
          simp
        simp [hfits]

end Stencil.Yaml
