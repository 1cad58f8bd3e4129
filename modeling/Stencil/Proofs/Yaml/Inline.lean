import Stencil.Proofs.Yaml.Shared
import Stencil.Proofs.Yaml.Trimming

/-!
# Text on one line

A stretch of text without line ends moves a position along its line. A plain scalar takes words, and the spaces
between them, as they stand.

Main statements: `Position.advance_of_line` and `plain_append`.
-/

namespace Stencil.Yaml

/-! ## Positions -/

/-- How many bytes a text takes. -/
def bytes : List Char → Nat
  | [] => 0
  | c :: cs => c.utf8Size + bytes cs

@[simp] theorem bytes_nil : bytes [] = 0 := rfl

@[simp] theorem bytes_cons (c : Char) (cs : List Char) : bytes (c :: cs) = c.utf8Size + bytes cs := rfl

/-- **A text without line ends moves a position along its line.** -/
theorem Position.advance_of_line {a : List Char} (h : ∀ c ∈ a, isBreak c = false) (p : Position)
    (b : List Char) :
    p.advance a.length (a ++ b) = ⟨p.index + bytes a, p.line, p.column + a.length⟩ := by
  induction a generalizing p with
  | nil => rfl
  | cons c a ih =>
      obtain ⟨hc, ha⟩ := List.forall_mem_cons.mp h
      have hnext : p.next c (a ++ b) = ⟨p.index + c.utf8Size, p.line, p.column + 1⟩ := by
        simp [Position.next, hc]
      rw [List.cons_append, List.length_cons, Position.advance, hnext, ih ha]
      simp only [bytes_cons, Position.mk.injEq, true_and]
      omega

theorem Lexer.moveTo_append {s : Lexer} {a b : List Char} (h : s.rest = a ++ b) :
    s.moveTo b = { s with rest := b, position := s.position.advance a.length (a ++ b) } := by
  simp [Lexer.moveTo, h]

/-! ## Words -/

/-- Whether a character has no other meaning inside a plain scalar. -/
structure IsInner (c : Char) : Prop where
  gap : isGap c = false
  comment : c ≠ '#'
  colon : c ≠ ':'
  flow : isFlowIndicator c = false

theorem isInner_of_isBareChar {c : Char} (h : Json.isBareChar c = true) : IsInner c := by
  obtain ⟨hg, -, hnumber, hcolon, hf⟩ := solid_of_isBareChar h
  exact ⟨hg, hnumber, hcolon, hf⟩

theorem IsInner.isBlank {c : Char} (h : IsInner c) : isBlank c = false := (Bool.or_eq_false_iff.mp h.gap).1

theorem IsInner.isBreak {c : Char} (h : IsInner c) : isBreak c = false := (Bool.or_eq_false_iff.mp h.gap).2

theorem IsInner.returns {c : Char} (h : IsInner c) (cs : List Char) : returnsBeforeNewline c cs = false := by
  have hne : c ≠ '\r' := by
    rintro rfl
    exact absurd h.isBreak (by decide)
  simp [returnsBeforeNewline, hne]

/-- A plain scalar goes on with a character that has no other meaning. -/
theorem plain_cons {c : Char} (h : IsInner c) {flow : Bool} {margin : Nat} {g : List Char} {afterGap : Bool}
    {cs : List Char} :
    plain flow margin (.blanks g) afterGap (c :: cs)
      = (plain flow margin .empty false cs).map fun p => { p with text := g ++ c :: p.text } := by
  rw [plain]
  simp [h.returns, h.isBlank, h.isBreak, h.comment, h.colon, h.flow, leavesPlain, Gap.column?, strayColon,
    endsPlain, Gap.text]

/-- **A plain scalar takes words, and the spaces between them, as they stand.** -/
theorem plain_append {w : List Char} (hw : ∀ c ∈ w, c = ' ' ∨ IsInner c)
    (hl : ∃ c, w.getLast? = some c ∧ c ≠ ' ') {flow : Bool} {margin : Nat} {g : List Char} {afterGap : Bool}
    (rest : List Char) :
    plain flow margin (.blanks g) afterGap (w ++ rest)
      = (plain flow margin .empty false rest).map fun p => { p with text := g ++ (w ++ p.text) } := by
  induction w generalizing g afterGap with
  | nil =>
      obtain ⟨c, hc, -⟩ := hl
      contradiction
  | cons c w ih =>
      obtain ⟨hc, hw⟩ := List.forall_mem_cons.mp hw
      rw [List.cons_append]
      cases w with
      | nil =>
          obtain ⟨d, hd, hne⟩ := hl
          cases hd
          exact plain_cons (hc.resolve_left hne)
      | cons d w =>
          have ih := @ih hw (by simpa [List.getLast?_cons_cons] using hl)
          rcases hc with rfl | hc
          · rw [plain]
            simp only [returnsBeforeNewline, isBlank, Gap.addBlank]
            exact (ih (g := g ++ [' '])).trans (by simp)
          · have hmore : plain flow margin .empty false (d :: w ++ rest) = _ := ih (g := [])
            rw [plain_cons hc, hmore, Option.map_map]
            rfl

end Stencil.Yaml
