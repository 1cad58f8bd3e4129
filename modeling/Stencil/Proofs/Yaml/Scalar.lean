import Stencil.Proofs.Text.Lines
import Stencil.Proofs.Yaml.Cutting

/-!
# Texts of one plain scalar

Outside brackets a plain scalar goes on over the ends of lines until something interrupts it: a colon, a
number sign, or a mark between documents. A text in which none of these stands is one plain scalar, whatever
else it holds.

Main statement: `tokens?_of_flowing`.
-/

namespace Stencil.Yaml

open Stencil.Text

/-- Whether a text has none of the characters that could end a plain scalar outside brackets, and no line of
it but the first is a mark between documents. -/
structure Flowing (cs : List Char) : Prop where
  char : ∀ c ∈ cs, c ≠ ':' ∧ c ≠ '#' ∧ (isBreak c = true → c = '\n')
  line : ∀ a b, cs = a ++ '\n' :: b → startsDocumentMark b = false

theorem Flowing.tail {c : Char} {cs : List Char} (h : Flowing (c :: cs)) : Flowing cs :=
  ⟨fun d hd => h.char d (List.mem_cons_of_mem c hd),
    fun a b hab => h.line (c :: a) b (by rw [hab, List.cons_append])⟩

theorem flowing_nil : Flowing [] := ⟨by simp, by simp⟩

/-- A line in front of a text that flows on, if what flows on is no mark between documents. -/
theorem Flowing.append_newline {line rest : List Char}
    (hc : ∀ c ∈ line, c ≠ ':' ∧ c ≠ '#' ∧ isBreak c = false) (h : Flowing rest)
    (hm : startsDocumentMark rest = false) : Flowing (line ++ '\n' :: rest) := by
  have hnewline : '\n' ∉ line := fun hn => by
    have hb := (hc '\n' hn).2.2
    contradiction
  refine ⟨fun c hmem => ?_, fun a b hab => ?_⟩
  · rcases List.mem_append.mp hmem with hmem | hmem
    · obtain ⟨hcolon, hnumber, hb⟩ := hc c hmem
      exact ⟨hcolon, hnumber, fun hbreak => by rw [hb] at hbreak; contradiction⟩
    · rcases List.mem_cons.mp hmem with rfl | hmem
      · exact ⟨by decide, by decide, fun _ => rfl⟩
      · exact h.char c hmem
  · rcases List.append_eq_append_iff.mp hab with ⟨more, rfl, he⟩ | ⟨more, rfl, he⟩
    · cases more with
      | nil => exact (List.cons.inj he).2 ▸ hm
      | cons d more => exact h.line more b (List.cons.inj he).2
    · cases more with
      | nil => exact (List.cons.inj he).2 ▸ hm
      | cons d more =>
          obtain ⟨rfl, -⟩ := List.cons.inj he
          exact absurd (List.mem_append_right a List.mem_cons_self) hnewline

theorem Flowing.line_of_not_isBreak {line : List Char}
    (hc : ∀ c ∈ line, c ≠ ':' ∧ c ≠ '#' ∧ isBreak c = false) : Flowing line := by
  refine ⟨fun c hm => ?_, fun a b hab => ?_⟩
  · obtain ⟨hcolon, hnumber, hb⟩ := hc c hm
    exact ⟨hcolon, hnumber, fun hbreak => by rw [hb] at hbreak; contradiction⟩
  · have hb := (hc '\n' (hab ▸ List.mem_append_right a List.mem_cons_self)).2.2
    contradiction

/-- **Lines that nothing interrupts flow on.** -/
theorem flowing_join {ls : List (List Char)} {tail : List Char} (ht : tail = [] ∨ tail = ['\n'])
    (hc : ∀ l ∈ ls, ∀ c ∈ l, c ≠ ':' ∧ c ≠ '#' ∧ isBreak c = false)
    (hm : ∀ l ∈ ls, ∀ rest, startsDocumentMark (l ++ rest) = false) (hne : ls ≠ []) :
    Flowing (join ['\n'] ls ++ tail) := by
  induction ls with
  | nil => exact absurd rfl hne
  | cons line more ih =>
      have hline := hc line List.mem_cons_self
      have hmore := ih (fun l hl => hc l (List.mem_cons_of_mem _ hl))
        (fun l hl => hm l (List.mem_cons_of_mem _ hl))
      cases more with
      | nil =>
          rcases ht with rfl | rfl
          · rw [List.append_nil]
            exact .line_of_not_isBreak hline
          · exact .append_newline hline flowing_nil rfl
      | cons next more =>
          rw [join_cons_cons, List.append_assoc, List.cons_append]
          refine .append_newline hline (hmore (List.cons_ne_nil next more)) ?_
          have hnext := hm next (List.mem_cons_of_mem _ List.mem_cons_self)
          cases more with
          | nil => exact hnext tail
          | cons last more =>
              rw [join_cons_cons, List.append_assoc]
              exact hnext _

theorem column?_addBlank_ne (gap : Gap) (c : Char) : (gap.addBlank c).column? ≠ some 0 := by
  cases gap <;> simp [Gap.addBlank, Gap.column?]

/-- **A plain scalar outside brackets takes up the whole text** where nothing can end it. -/
theorem exists_plain_of_flowing {cs : List Char} (h : Flowing cs) (gap : Gap)
    (hg : gap.column? = some 0 → startsDocumentMark cs = false) (afterGap : Bool) :
    ∃ p, plain false 0 gap afterGap cs = some p ∧ p.rest = [] := by
  induction cs generalizing gap afterGap with
  | nil => exact ⟨_, rfl, rfl⟩
  | cons c cs ih =>
      obtain ⟨hcolon, hnumber, hbreak⟩ := h.char c List.mem_cons_self
      have hreturn : returnsBeforeNewline c cs = false := by
        by_cases hr : c = '\r'
        · subst hr
          exact absurd (hbreak rfl) (by decide)
        · simp [returnsBeforeNewline, hr]
      -- With no margin to fall short of, only a mark between documents could end the scalar at a new line.
      have hleaves : leavesPlain false 0 gap.column? (c :: cs) = false := by
        cases hk : gap.column? with
        | none => rfl
        | some k =>
            by_cases h0 : k = 0
            · subst h0
              simp [leavesPlain, hg hk]
            · simp [leavesPlain, h0]
      have hends : endsPlain false afterGap c cs = false := by simp [endsPlain, hcolon, hnumber]
      unfold plain
      simp only [hreturn, hleaves, hends, strayColon]
      by_cases hblank : isBlank c = true
      · have htab : ¬ (c = '\t' ∧ gap.column?.any (· < 0) = true) := by simp
        simp only [hblank, if_neg htab]
        exact ih h.tail _ (fun hc => absurd hc (column?_addBlank_ne gap c)) true
      by_cases hb : isBreak c = true
      · obtain rfl := hbreak hb
        simp only [hblank, hb]
        exact ih h.tail _ (fun _ => h.line [] cs rfl) true
      · obtain ⟨p, hp, hr⟩ := ih h.tail .empty (by simp) false
        simp [hblank, hb, hnumber, hp, hr]

namespace Lexer

theorem lenient_start (text : List Char) : (start text).Lenient := by
  rintro c (hc | hc) <;> cases hc

/-- At the end of a text without block collections its tokens are complete. -/
theorem run_of_rest_eq_nil {s : Lexer} (h : s.rest = []) (hm : s.margin = 0) (hs : s.Lenient)
    (n : Nat) : run (n + 1) s = some s.tokens.reverse := by
  obtain ⟨t, ht, hr⟩ := exists_ready hs
  have hrest : t.rest = [] := by rw [hr.rest, skipped_of_rest_eq_nil h]
  rw [run_succ, ht, Option.bind_some]
  simp only [hrest]
  rw [finish_of_margin_eq_zero (hr.margin.trans hm) (hr.lenient hs), hr.tokens]

/-- The cut behind a plain scalar outside of all block collections. -/
theorem exists_plainScalar {s : Lexer} {p : Plain} (hm : s.margin = 0) (hs : s.Lenient)
    (hp : plain s.inFlow 0 .empty false s.rest = some p) :
    ∃ t, s.plainScalar = some t ∧ t.rest = p.rest ∧ t.margin = 0 ∧ t.Lenient
      ∧ t.tokens = .scalar true (String.ofList p.text) :: s.tokens := by
  obtain ⟨candidate, hn, hl⟩ := exists_noteCandidate hm hs
  have hp' : plain (inFlow { s with candidate := candidate }) s.margin .empty false s.rest = some p := by
    rw [hm]
    exact hp
  simp only [plainScalar, hn, hp', bind, Option.bind_some]
  exact ⟨_, rfl, rfl, hm, hl, rfl⟩

end Lexer

open Lexer in
/-- **A text that nothing interrupts is cut into one plain scalar.** -/
theorem tokens?_of_flowing {c : Char} {cs : List Char} (h : Flowing (c :: cs))
    (ha : (c :: cs).all isAllowed = true) (hg : isGap c = false) (hi : isIndicator c = false)
    (hf : c ≠ '\ufeff') (hm : startsDocumentMark (c :: cs) = false) :
    ∃ text, tokens? (c :: cs) = some [.scalar true text] := by
  obtain ⟨s, hready, hs⟩ := exists_ready (lenient_start (c :: cs))
  have hrest : s.rest = c :: cs := by
    rw [hs.rest, skipped_of_word rfl hg (h.char c List.mem_cons_self).2.1 hf]
  have hflow : s.inFlow = false := by
    simpa [inFlow, start] using hs.brackets
  obtain ⟨p, hp, hend⟩ := exists_plain_of_flowing h .empty (by simp) false
  have hplain : plain s.inFlow 0 .empty false s.rest = some p := by rw [hrest, hflow, hp]
  obtain ⟨t, ht, htrest, htmargin, htlenient, htokens⟩ :=
    exists_plainScalar hs.margin (hs.lenient (lenient_start _)) hplain
  refine ⟨String.ofList p.text, ?_⟩
  rw [tokens?, if_pos ha, run_succ, hready, Option.bind_some]
  simp only [hrest]
  rw [closeBlocks_of_margin_eq_zero hs.margin, token_of_word hg hi hm, ht, Option.bind_some,
    List.length_cons, run_of_rest_eq_nil (htrest.trans hend) htmargin htlenient, htokens, hs.tokens]
  rfl

end Stencil.Yaml
