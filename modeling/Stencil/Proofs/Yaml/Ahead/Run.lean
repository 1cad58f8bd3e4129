import Stencil.Proofs.Yaml.Ahead.Token
import Stencil.Proofs.Yaml.Steps

/-!
# Spaces in front of a text

A text is cut up the same with spaces in front of it, if it can be moved to the right (`Movable`) and is one line,
or has no block collection on its first line (`Lexer.opensLate`): such a collection would move away from its
further lines.

Main statement: `tokens?_indented`.
-/

namespace Stencil.Yaml

open Stencil.Text

namespace Lexer

variable {i : Indent} {s u : Lexer} {n : Nat}

theorem Steady.of_ready? (h : s.Steady i) (hu : s.ready? = some u) : u.Steady i := by
  have hready := ready_of_ready? hu
  exact h.later (hready.rest ▸ suffix_skipToToken ..) (moved_of_ready? hu) fun hm => h.agrees (hready.margin ▸ hm)

theorem Steady.closeBlocks (h : s.Steady i) (margin : Nat) : (s.closeBlocks margin).Steady i := by
  have hzero : s.margin = 0 → (s.closeBlocks margin).margin = 0 := fun hm => by
    rwa [closeBlocks_of_margin_eq_zero hm]
  refine ⟨?_, fun hm => ?_, ?_⟩
  · rw [rest_closeBlocks]
    exact h.moves
  · rw [position_closeBlocks]
    exact h.agrees (mt hzero hm)
  · rw [position_closeBlocks, rest_closeBlocks]
    exact h.movable

/-- Whether no block collection is open behind a token that starts on the first line. -/
def opensLate : Nat → Lexer → Bool
  | 0, _ => true
  | n + 1, s =>
      s.ready?.all fun s =>
        match s.rest with
        | [] => true
        | c :: cs =>
            ((s.closeBlocks (s.position.column + 1)).token c cs).all fun u =>
              (u.margin == 0 || s.position.line != 0) && u.opensLate n

/-- **The run on the moved text reads the same tokens.** -/
theorem run_indented (h : s.Steady i) (hlate : i.whole = false → s.opensLate n = true) :
    run n (s.indented i) = run n s := by
  induction n generalizing s with
  | zero => rfl
  | succ n ih =>
      rw [run_succ, run_succ, h.ready?_indented]
      cases hu : s.ready? with
      | none => rfl
      | some u =>
          have hsteady := h.of_ready? hu
          have hrest : (u.indented i).rest = u.rest := rfl
          simp only [opensLate, hu, Option.all_some] at hlate
          simp only [Option.map_some, Option.bind_some, hrest]
          cases hr : u.rest with
          | nil => exact finish_indented i u
          | cons c cs =>
              simp only [hr] at hlate
              have hv : (u.closeBlocks (u.position.column + 1)).rest = c :: cs := by rw [rest_closeBlocks, hr]
              have hline : ∀ d, (u.closeBlocks (u.position.column + 1)).candidate = some d →
                  (u.closeBlocks (u.position.column + 1)).position.line ≤ d.position.line := fun d hd => by
                rw [candidate_closeBlocks] at hd
                rw [position_closeBlocks]
                exact line_of_ready? hu hd
              have hposition := position_closeBlocks u (u.position.column + 1)
              rw [closeBlocks_line_indented hsteady.agrees]
              replace hsteady := hsteady.closeBlocks (u.position.column + 1)
              generalize u.closeBlocks (u.position.column + 1) = v at hlate hv hline hposition hsteady
              -- If only the first line is moved, no collection is open on it.
              have hlevels : Levels i v (v.token c cs) := fun w hw hne => by
                cases hwhole : i.whole with
                | true => exact Indent.shift_of_whole hwhole _
                | false =>
                    have hlate := hlate hwhole
                    simp only [hw, Option.all_some, Bool.and_eq_true, Bool.or_eq_true, beq_iff_eq, bne_iff_ne,
                      hne, false_or] at hlate
                    simp [Indent.shift, Indent.marginShift, hwhole, hposition, hlate.1]
              show ((v.indented i).token c cs).bind (run n) = (v.token c cs).bind (run n)
              rw [shifts_token hsteady hv hline hlevels]
              cases hw : v.token c cs with
              | none => rfl
              | some w =>
                  have hsuffix : w.rest <:+ v.rest := hv ▸ (advances_token hv hw).1.trans (List.suffix_cons c cs)
                  refine ih (hsteady.later hsuffix (moved_of_token hw) (hlevels w hw)) fun hwhole => ?_
                  have hlate := hlate hwhole
                  simp only [hw, Option.all_some, Bool.and_eq_true] at hlate
                  exact hlate.2

/-! ## The start of a text -/

theorem skipToToken_spaces (columns : Nat) (cs : List Char) (column : Nat) :
    skipToToken true false column false (List.replicate columns ' ' ++ cs)
      = skipToToken true false (column + columns) false cs := by
  induction columns generalizing column with
  | zero => rfl
  | succ n ih =>
      rw [List.replicate_succ, List.cons_append, skipToToken, if_neg (by decide), if_neg (by simp),
        if_pos (.inl rfl), ih]
      congr 1
      omega

theorem position_spaces (columns : Nat) (cs : List Char) (p : Position) :
    p.advance columns (List.replicate columns ' ' ++ cs) = ⟨p.index + columns, p.line, p.column + columns⟩ := by
  induction columns generalizing p with
  | zero => rfl
  | succ n ih =>
      have hnext : p.next ' ' (List.replicate n ' ' ++ cs) = ⟨p.index + 1, p.line, p.column + 1⟩ := rfl
      rw [List.replicate_succ, List.cons_append, Position.advance, hnext, ih, Position.mk.injEq]
      refine ⟨?_, rfl, ?_⟩ <;> simp only <;> omega

/-- Behind spaces, a text starts like the moved text. -/
theorem moveTo_spaces (columns : Nat) (whole : Bool) (core : List Char) :
    (start (List.replicate columns ' ' ++ core)).moveTo core = (start core).indented ⟨columns, whole⟩ := by
  have hposition : Position.start.advance ((List.replicate columns ' ' ++ core).length - core.length)
      (List.replicate columns ' ' ++ core) = (Indent.mk columns whole).position .start := by
    rw [List.length_append, List.length_replicate, Nat.add_sub_cancel, position_spaces]
    simp [Indent.position, Indent.shift, Position.start]
  exact congrArg (Lexer.mk core · 0 [] true none [] [] 0) hposition

theorem atToken_spaces (columns : Nat) (whole : Bool) (core : List Char) :
    (start (List.replicate columns ' ' ++ core)).atToken = ((start core).indented ⟨columns, whole⟩).atToken := by
  have hrest : (start (List.replicate columns ' ' ++ core)).rest = List.replicate columns ' ' ++ core := rfl
  rw [← moveTo_spaces columns whole core]
  refine (atToken_moveTo hrest ?_).symm
  rw [moveTo_spaces columns whole core]
  show skipToToken true false (0 + Indent.shift ⟨columns, whole⟩ 0) false core
    = skipToToken true false 0 false (List.replicate columns ' ' ++ core)
  rw [skipToToken_spaces]
  simp [Indent.shift]

end Lexer

/-- Whether a text is cut up the same further to the right: it does not start with what counts at the start of a
line only, and has no block collection on its first line unless it is one line. -/
def MovesRight (core : List Char) : Prop :=
  Lexer.startsWithLineMark core = false
    ∧ (Unbroken core ∨ (Lexer.start core).opensLate (core.length + 1) = true)

/-- **A text is cut up the same with spaces in front of it**, if it can be moved to the right. -/
theorem tokens?_indented {core : List Char} (hs : StartsSolid core) (h : MovesRight core) (columns : Nat) :
    tokens? (List.replicate columns ' ' ++ core) = tokens? core := by
  obtain ⟨whole, hmoves, hlate⟩ : ∃ whole, (Indent.mk columns whole).Moves core
      ∧ (whole = false → (Lexer.start core).opensLate (core.length + 1) = true) := by
    rcases h.2 with hunbroken | hlate
    · exact ⟨true, fun _ => hunbroken, nofun⟩
    · exact ⟨false, nofun, fun _ => hlate⟩
  have hsteady : (Lexer.start core).Steady ⟨columns, whole⟩ :=
    ⟨hmoves, fun h => absurd rfl h, fun _ _ => ⟨h.1, hs⟩⟩
  have hall : (List.replicate columns ' ' ++ core).all isAllowed = core.all isAllowed := by
    have hspaces : (List.replicate columns ' ').all isAllowed = true :=
      List.all_eq_true.mpr fun c hc => List.eq_of_mem_replicate hc ▸ rfl
    rw [List.all_append, hspaces, Bool.true_and]
  have hlength : core.length < (List.replicate columns ' ' ++ core).length + 1 := by
    rw [List.length_append]
    omega
  have hrun : ((Lexer.start core).indented ⟨columns, whole⟩).run ((List.replicate columns ' ' ++ core).length + 1)
      = ((Lexer.start core).indented ⟨columns, whole⟩).run (core.length + 1) :=
    Lexer.run_eq_run hlength (Nat.lt_succ_self _)
  unfold tokens?
  rw [hall, Lexer.run_congr (Lexer.atToken_spaces columns whole core), hrun, Lexer.run_indented hsteady hlate]

end Stencil.Yaml
