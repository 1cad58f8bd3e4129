import Stencil.Proofs.Yaml.Progress

/-!
# A text moved to the right

Spaces in front of a text move its first line to the right, and with it the block collections that open there.
The places of a lexer in the moved text (`Lexer.indented`) are those in the text with other columns. A lexer
compares a column with margins, and with zero, which is where directives, marks between documents and the mark
of the encoding may stand. So it does not see the difference if the margins are moved with the lines that are
compared with them (`Lexer.Agrees`) and no such mark has left the start of its line (`Lexer.Steady`).

Main statements: `Lexer.Steady.ready?_indented` and the equations `Lexer.…_indented` of the operations.
-/

namespace Stencil.Yaml

open Stencil.Text

/-- Whether no line ends in a text. -/
def Unbroken (cs : List Char) : Prop := ∀ c ∈ cs, isBreak c = false

instance (cs : List Char) : Decidable (Unbroken cs) := List.decidableBAll _ cs

/-- By how many columns a text is moved, and whether all of it is moved or its first line only. -/
structure Indent where
  columns : Nat
  whole : Bool

namespace Indent

/-- By how many columns a line is moved. -/
def shift (i : Indent) (line : Nat) : Nat := if i.whole || line == 0 then i.columns else 0

/-- By how many columns the margins of block collections are moved. -/
def marginShift (i : Indent) : Nat := if i.whole then i.columns else 0

def position (i : Indent) (p : Position) : Position := ⟨p.index + i.columns, p.line, p.column + i.shift p.line⟩

/-- A margin is moved with its block collection; the one outside of all stays. -/
def margin (i : Indent) (m : Nat) : Nat := if m = 0 then 0 else m + i.marginShift

def candidate (i : Indent) (c : Candidate) : Candidate := { c with position := i.position c.position }

/-- Whether a text can be moved: all of it only if it is one line. -/
def Moves (i : Indent) (cs : List Char) : Prop := i.whole = true → Unbroken cs

variable {i : Indent} {p q : Position} {c : Char} {cs : List Char} {m : Nat}

theorem shift_of_whole (h : i.whole = true) (line : Nat) : i.shift line = i.marginShift := by
  simp [shift, marginShift, h]

theorem margin_of_pos (h : m ≠ 0) : i.margin m = m + i.marginShift := if_neg h

theorem margin_eq_zero_iff : i.margin m = 0 ↔ m = 0 := by
  unfold margin
  split <;> omega

/-- Below a line that moves with the block collections, all lines do. -/
theorem shift_eq_of_le {line line' : Nat} (h : i.shift line = i.marginShift) (hle : line ≤ line') :
    i.shift line' = i.marginShift := by
  cases hw : i.whole with
  | true => exact shift_of_whole hw line'
  | false =>
      unfold shift marginShift at *
      simp only [hw, Bool.false_or, beq_iff_eq, Bool.false_eq_true, if_false] at h ⊢
      split at h
      · rw [h, ite_self]
      · rw [if_neg (by omega)]

theorem Moves.of_suffix {rest : List Char} (h : i.Moves cs) (hr : rest <:+ cs) : i.Moves rest :=
  fun hw c hc => h hw c (hr.subset hc)

theorem isStale_candidate (i : Indent) (p : Position) (c : Candidate) :
    Lexer.isStale (i.position p) (i.candidate c) = Lexer.isStale p c := by
  simp only [Lexer.isStale, candidate, position]
  congr 2
  rw [eq_iff_iff]
  omega

theorem position_next (h : i.Moves (c :: cs)) (p : Position) :
    (i.position p).next c cs = i.position (p.next c cs) := by
  unfold Position.next
  by_cases hb : (isBreak c && !returnsBeforeNewline c cs) = true
  · have hw : i.whole = false := by
      rw [← Bool.not_eq_true]
      intro hw
      rw [h hw c List.mem_cons_self] at hb
      contradiction
    rw [if_pos hb, if_pos hb]
    simp only [position, shift, hw, Position.mk.injEq, true_and]
    refine ⟨by omega, ?_⟩
    simp
  · rw [if_neg hb, if_neg hb]
    simp only [position, Position.mk.injEq, true_and]
    omega

theorem position_advance (h : i.Moves cs) (n : Nat) (p : Position) :
    (i.position p).advance n cs = i.position (p.advance n cs) := by
  fun_induction Position.advance p n cs with
  | case1 | case2 => rfl
  | case3 p n c cs ih =>
      rw [Position.advance, position_next h]
      exact ih (h.of_suffix (List.suffix_cons c cs))

end Indent

/-- The column grows by one with each character, as long as no line ends. -/
theorem Position.column_advance {p : Position} {n : Nat} {cs : List Char} (hn : n ≤ cs.length)
    (h : (p.advance n cs).line = p.line) : (p.advance n cs).column = p.column + n := by
  fun_induction Position.advance p n cs with
  | case1 => rfl
  | case2 => cases hn
  | case3 p n c cs ih =>
      have hle := line_le_advance n (p.next c cs) cs
      rw [h] at hle
      by_cases hb : (isBreak c && !returnsBeforeNewline c cs) = true
      · have hnext : (p.next c cs).line = p.line + 1 := by rw [Position.next, if_pos hb]
        omega
      · have hnext : p.next c cs = ⟨p.index + c.utf8Size, p.line, p.column + 1⟩ := if_neg hb
        rw [hnext] at ih h ⊢
        rw [ih (Nat.le_of_succ_le_succ hn) h]
        show p.column + 1 + n = p.column + (n + 1)
        omega

theorem Position.line_advance_of_unbroken {n : Nat} {cs : List Char} (h : Unbroken cs) (p : Position) :
    (p.advance n cs).line = p.line := by
  fun_induction Position.advance p n cs with
  | case1 | case2 => rfl
  | case3 p n c cs ih =>
      obtain ⟨hc, hcs⟩ := List.forall_mem_cons.mp h
      rw [ih hcs, Position.next, if_neg (by simp [hc])]

namespace Lexer

/-- A place in a text, as a place in the moved text. -/
def indented (i : Indent) (s : Lexer) : Lexer :=
  { s with
    position := i.position s.position
    margin := i.margin s.margin
    outerMargins := s.outerMargins.map i.margin
    candidate := s.candidate.map i.candidate
    outerCandidates := s.outerCandidates.map (Option.map i.candidate) }

/-- Whether the margin at a place is moved with the line of the place. -/
def Agrees (i : Indent) (s : Lexer) : Prop := s.margin ≠ 0 → i.shift s.position.line = i.marginShift

variable {i : Indent} {s u : Lexer} {c : Char} {cs : List Char}

theorem candidate_indented (i : Indent) (s : Lexer) : (s.indented i).candidate = s.candidate.map i.candidate := rfl

@[simp] theorem inFlow_indented (i : Indent) (s : Lexer) : (s.indented i).inFlow = s.inFlow := by
  simp [inFlow, indented]

theorem moveTo_indented (h : i.Moves s.rest) (rest : List Char) :
    (s.indented i).moveTo rest = (s.moveTo rest).indented i := by
  show { s.indented i with
    rest := rest
    position := (i.position s.position).advance (s.rest.length - rest.length) s.rest } = _
  rw [Indent.position_advance h]
  rfl

/-! ## Possible keys -/

theorem dropCandidate_indented (i : Indent) (s : Lexer) :
    (s.indented i).dropCandidate = s.dropCandidate.map (indented i) := by
  obtain ⟨_, _, _, _, _, candidate, _, _, _⟩ := s
  cases candidate with
  | none => rfl
  | some c =>
      have hr : (i.candidate c).required = c.required := rfl
      by_cases hc : c.required = true <;> simp [dropCandidate, indented, hr, hc]

theorem dropStale_indented (i : Indent) (s : Lexer) :
    (s.indented i).dropStale = s.dropStale.map (indented i) := by
  rw [dropStale_map (s := s) (g := i.candidate) (i.isStale_candidate s.position) (fun _ => rfl) rfl rfl,
    dropStale_eq]
  split <;> rfl

/-- Whether a node that starts here has to be a key. -/
def mustBeKey (s : Lexer) : Bool := !s.inFlow && s.margin == s.position.column + 1

theorem noteCandidate_eq (s : Lexer) :
    s.noteCandidate = if s.keyAllowed then
        s.dropCandidate.map fun u => { u with candidate := some ⟨u.count, u.position, u.mustBeKey⟩ }
      else some s := by
  unfold noteCandidate
  cases s.dropCandidate <;> rfl

theorem mustBeKey_indented (h : s.Agrees i) : (s.indented i).mustBeKey = s.mustBeKey := by
  have hmargin : (i.margin s.margin == s.position.column + i.shift s.position.line + 1)
      = (s.margin == s.position.column + 1) := by
    rw [Bool.eq_iff_iff, beq_iff_eq, beq_iff_eq]
    by_cases hm : s.margin = 0
    · rw [Indent.margin, if_pos hm, hm]
      omega
    · rw [Indent.margin_of_pos hm, h hm]
      omega
  unfold mustBeKey
  rw [inFlow_indented]
  exact congrArg (!s.inFlow && ·) hmargin

theorem noteCandidate_indented (h : s.Agrees i) :
    (s.indented i).noteCandidate = s.noteCandidate.map (indented i) := by
  rw [noteCandidate_eq, noteCandidate_eq, dropCandidate_indented]
  show (if s.keyAllowed then _ else _) = _
  split
  · cases hd : s.dropCandidate with
    | none => rfl
    | some u =>
        obtain rfl := eq_of_dropCandidate hd
        simp only [Option.map_some, mustBeKey_indented (s := { s with candidate := none }) h]
        rfl
  · rfl

/-! ## Indentation -/

/-- Closes some block collections. -/
def close (s : Lexer) (n : Nat) : Lexer :=
  match (s.margin :: s.outerMargins).drop n with
  | [] => s
  | inner :: outer =>
      { s with
        margin := inner
        outerMargins := outer
        tokens := List.replicate n .blockEnd ++ s.tokens
        count := s.count + n }

theorem closeBlocks_eq (s : Lexer) (margin : Nat) :
    s.closeBlocks margin =
      if s.inFlow then s else s.close ((s.margin :: s.outerMargins).takeWhile (margin < ·)).length := rfl

theorem close_indented (i : Indent) (s : Lexer) (n : Nat) :
    (s.indented i).close n = (s.close n).indented i := by
  unfold close
  show (match ((s.margin :: s.outerMargins).map i.margin).drop n with
    | [] => s.indented i
    | inner :: outer => _) = _
  rw [← List.map_drop]
  cases (s.margin :: s.outerMargins).drop n <;> rfl

/-- A line closes the same block collections, moved or not: those that it lies outside of are told by their
margins, and outside of all there is nothing to close. -/
theorem closeBlocks_indented {margin margin' : Nat}
    (h : s.margin = 0 ∨ ∀ m, margin' < i.margin m ↔ margin < m) :
    (s.indented i).closeBlocks margin' = (s.closeBlocks margin).indented i := by
  have hclosed : (((s.margin :: s.outerMargins).map i.margin).takeWhile (margin' < ·)).length
      = ((s.margin :: s.outerMargins).takeWhile (margin < ·)).length := by
    rcases h with hm | hiff
    · rw [hm]
      simp [Indent.margin]
    · rw [List.takeWhile_map, List.length_map]
      congr 2
      funext m
      simp [hiff]
  rw [closeBlocks_eq, closeBlocks_eq, inFlow_indented]
  split
  · rfl
  · show (s.indented i).close (((s.margin :: s.outerMargins).map i.margin).takeWhile (margin' < ·)).length = _
    rw [hclosed, close_indented]

theorem closeBlocks_line_indented (h : s.Agrees i) :
    (s.indented i).closeBlocks ((s.indented i).position.column + 1)
      = (s.closeBlocks (s.position.column + 1)).indented i := by
  refine closeBlocks_indented ?_
  by_cases hm : s.margin = 0
  · exact .inl hm
  · refine .inr fun m => ?_
    show s.position.column + i.shift s.position.line + 1 < i.margin m ↔ _
    rw [h hm, Indent.margin]
    split <;> omega

theorem endDocument_indented (i : Indent) (s : Lexer) :
    (s.indented i).endDocument = s.endDocument.map (indented i) := by
  have hiff : ∀ m, 0 < i.margin m ↔ 0 < m := fun m => by
    rw [Nat.pos_iff_ne_zero, Nat.pos_iff_ne_zero, ne_eq, Indent.margin_eq_zero_iff]
  unfold endDocument
  rw [closeBlocks_indented (.inr hiff), dropCandidate_indented]
  cases (s.closeBlocks 0).dropCandidate <;> rfl

theorem finish_indented (i : Indent) (s : Lexer) : (s.indented i).finish = s.finish := by
  unfold finish
  rw [endDocument_indented]
  cases s.endDocument <;> rfl

theorem opensBlock_indented (p : Position) (h : s.margin ≠ 0 → i.shift p.line = i.marginShift) :
    (s.indented i).opensBlock (i.position p).column = s.opensBlock p.column := by
  have hmargin : i.margin s.margin ≤ p.column + i.shift p.line ↔ s.margin ≤ p.column := by
    by_cases hm : s.margin = 0
    · rw [Indent.margin, if_pos hm, hm]
      simp
    · rw [Indent.margin_of_pos hm, h hm]
      omega
  unfold opensBlock
  rw [inFlow_indented]
  show (!s.inFlow && decide (i.margin s.margin ≤ p.column + i.shift p.line)) = _
  rw [decide_eq_decide.mpr hmargin]

theorem enter_indented {p : Position} (h : i.shift p.line = i.marginShift) (s : Lexer) :
    (s.indented i).enter (i.position p).column = (s.enter p.column).indented i := by
  have hmargin : p.column + i.shift p.line + 1 = i.margin (p.column + 1) := by
    rw [Indent.margin_of_pos (Nat.succ_ne_zero _), h]
    omega
  show Lexer.mk _ _ (p.column + i.shift p.line + 1) _ _ _ _ _ _ = _
  rw [hmargin]
  rfl

/-- Inside a block collection there is a margin, and one that opens here sets one. -/
theorem margin_openBlock_ne_zero {t : Token} (h : s.margin ≠ 0 ∨ s.opensBlock s.position.column = true) :
    (s.openBlock t).margin ≠ 0 := by
  unfold openBlock
  split
  · exact Nat.succ_ne_zero _
  · rename_i ho
    exact h.resolve_right ho

theorem openBlock_indented {t : Token}
    (h : (s.openBlock t).margin ≠ 0 → i.shift s.position.line = i.marginShift) :
    (s.indented i).openBlock t = (s.openBlock t).indented i := by
  have hopens := opensBlock_indented s.position fun hm => h (margin_openBlock_ne_zero (.inl hm))
  have hopens : (s.indented i).opensBlock (s.indented i).position.column = s.opensBlock s.position.column := hopens
  rw [openBlock, hopens]
  by_cases ho : s.opensBlock s.position.column = true
  · rw [if_pos ho, openBlock, if_pos ho]
    show ((s.indented i).enter (i.position s.position).column).emit t = _
    rw [enter_indented (h (margin_openBlock_ne_zero (.inr ho)))]
    rfl
  · rw [if_neg ho, openBlock, if_neg ho]

theorem openKey_indented {c : Candidate}
    (h : (s.openKey c).margin ≠ 0 → i.shift c.position.line = i.marginShift) :
    (s.indented i).openKey (i.candidate c) = (s.openKey c).indented i := by
  have hmark : (s.indented i).markKey (i.candidate c) = (s.markKey c).indented i := rfl
  by_cases ho : (s.markKey c).opensBlock c.position.column = true
  · have hc : i.shift c.position.line = i.marginShift := h (by
      rw [openKey, if_pos ho]
      exact Nat.succ_ne_zero _)
    have ho' : ((s.markKey c).indented i).opensBlock (i.position c.position).column = true := by
      rw [opensBlock_indented c.position fun _ => hc, ho]
    rw [openKey, openKey, if_pos ho, hmark]
    show (if ((s.markKey c).indented i).opensBlock (i.position c.position).column then
      (((s.markKey c).indented i).enter (i.position c.position).column).emitAt c.before .blockMapping else _) = _
    rw [if_pos ho', enter_indented hc]
    rfl
  · have ho' : ¬ ((s.markKey c).indented i).opensBlock (i.position c.position).column = true := by
      rw [opensBlock_indented c.position fun hm => h (by rwa [openKey, if_neg ho])]
      exact ho
    rw [openKey, openKey, if_neg ho, hmark]
    exact if_neg ho'

/-! ## White space -/

/-- Columns matter to white space only in so far as a line starts or does not. -/
theorem skipToToken_congr {column column' : Nat} (h : column' = 0 ↔ column = 0) (keyAllowed flow comment : Bool)
    (cs : List Char) :
    skipToToken keyAllowed flow column' comment cs = skipToToken keyAllowed flow column comment cs := by
  induction cs generalizing keyAllowed comment column column' with
  | nil => rfl
  | cons c cs ih =>
      have hnext : column' + 1 = 0 ↔ column + 1 = 0 := by omega
      unfold skipToToken
      simp only [h]
      split
      · split
        · exact ih h ..
        · rfl
      split
      · exact ih hnext ..
      split
      · exact ih hnext ..
      split
      · rfl
      split
      · exact ih hnext ..
      · rfl

/-- Whether a text starts with what counts at the start of a line only: a directive, a mark between documents, or
the mark of the encoding. -/
def startsWithLineMark : List Char → Bool
  | [] => false
  | c :: cs => c == '%' || c == '\ufeff' || startsDocumentMark (c :: cs)

/-- Whether a text starts with a character that means the same wherever it stands in a line. -/
def Movable (cs : List Char) : Prop := startsWithLineMark cs = false ∧ StartsSolid cs

theorem skipToToken_of_movable (h : Movable cs) (keyAllowed flow : Bool) (column column' : Nat) :
    skipToToken keyAllowed flow column' false cs = skipToToken keyAllowed flow column false cs := by
  cases cs with
  | nil => rfl
  | cons c cs =>
      obtain ⟨hmark, hsolid⟩ := h
      simp only [startsWithLineMark, Bool.or_eq_false_iff, beq_eq_false_iff_ne] at hmark
      have hgap : isGap c = false := by
        rw [← Bool.not_eq_true]
        intro hgap
        exact absurd (isBlank_of_isGap hgap) (by simp [startsSolid_cons.mp hsolid])
      simp only [isGap, isBlank, Bool.or_eq_false_iff, beq_eq_false_iff_ne] at hgap
      simp only [skipToToken, hgap, hmark, false_and, or_self, if_false, Bool.false_eq_true]
      split
      · exact skipToToken_congr (by omega) ..
      · rfl

/-- What holds of a place in a text that can be moved. -/
structure Steady (i : Indent) (s : Lexer) : Prop where
  moves : i.Moves s.rest
  agrees : s.Agrees i
  movable : i.shift s.position.line ≠ 0 → s.position.column = 0 → Movable s.rest

theorem Steady.skipped_indented (h : s.Steady i) : (s.indented i).skipped = s.skipped := by
  rw [skipped, inFlow_indented]
  show skipToToken s.keyAllowed s.inFlow (s.position.column + i.shift s.position.line) false s.rest = _
  by_cases hc : s.position.column = 0
  · by_cases hi : i.shift s.position.line = 0
    · rw [hi]
      rfl
    · exact skipToToken_of_movable (h.movable hi hc) ..
  · exact skipToToken_congr (by omega) ..

theorem Steady.ready?_indented (h : s.Steady i) : (s.indented i).ready? = s.ready?.map (indented i) := by
  have hat : (s.indented i).atToken = s.atToken.indented i := by
    rw [atToken_eq, h.skipped_indented, moveTo_indented h.moves]
    rfl
  rw [ready?, hat, dropStale_indented]
  rfl

/-- The possible key at a token stands on the line of the token: others have been given up. -/
theorem line_of_ready? {c : Candidate} (h : s.ready? = some u) (hc : u.candidate = some c) :
    u.position.line ≤ c.position.line := by
  rw [ready?, dropStale_eq] at h
  split at h
  · contradiction
  · cases h
    have hkept : kept s.atToken.position s.atToken.candidate = some c := hc
    unfold kept at hkept
    split at hkept
    · contradiction
    · rename_i hstale
      rw [hkept] at hstale
      simp only [Option.any_some, isStale, Bool.or_eq_true, decide_eq_true_eq, not_or] at hstale
      exact Nat.not_lt.mp hstale.1

end Lexer

end Stencil.Yaml
