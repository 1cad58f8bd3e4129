import Stencil.Proofs.Yaml.Behind.Block
import Stencil.Proofs.Yaml.Cutting

/-!
# A text inside a longer one

The places of a lexer in a text, seen as places in a longer text: the same with more text behind what is left,
and with more lines in front (`Lexer.within`). Everything a lexer asks of a place is asked of the column and of
distances between positions, so its operations do not see the difference, as long as the text does not end
between the two characters of a line end.

Main statements: `Lexer.ready?_within` and the equations `Lexer.…_within` of the operations.
-/

namespace Stencil.Yaml

open Stencil.Text

/-- The text behind another, and how many lines and bytes stand in front of it. -/
structure Frame where
  behind : List Char
  line : Nat
  index : Nat

namespace Frame

/-- A position, counted from the start of the longer text. -/
def position (f : Frame) (p : Position) : Position := ⟨p.index + f.index, p.line + f.line, p.column⟩

/-- A possible key, with its position in the longer text. -/
def candidate (f : Frame) (c : Candidate) : Candidate := { c with position := f.position c.position }

@[simp] theorem position_column (f : Frame) (p : Position) : (f.position p).column = p.column := rfl

@[simp] theorem candidate_required (f : Frame) (c : Candidate) : (f.candidate c).required = c.required := rfl

theorem isStale_candidate (f : Frame) (p : Position) (c : Candidate) :
    Lexer.isStale (f.position p) (f.candidate c) = Lexer.isStale p c := by
  simp only [Lexer.isStale, candidate, position, Nat.add_lt_add_iff_right]
  congr 2
  rw [eq_iff_iff]
  omega

theorem position_next (f : Frame) (p : Position) (c : Char) (cs : List Char) :
    (f.position p).next c cs = f.position (p.next c cs) := by
  unfold Position.next
  by_cases hb : (isBreak c && !returnsBeforeNewline c cs) = true
  · rw [if_pos hb, if_pos hb]
    simp only [position, Position.mk.injEq, and_true]
    omega
  · rw [if_neg hb, if_neg hb]
    simp only [position, Position.mk.injEq, and_true]
    omega

theorem position_advance (f : Frame) (n : Nat) (p : Position) (cs : List Char) :
    (f.position p).advance n cs = f.position (p.advance n cs) := by
  fun_induction Position.advance p n cs with
  | case1 | case2 => rfl
  | case3 p n c cs ih =>
      rw [Position.advance, position_next]
      exact ih

end Frame

/-- The position after characters of a text is the same with more text behind it. -/
theorem Position.advance_append {cs : List Char} (h : EndsSolid cs) (t : List Char) {n : Nat}
    (hn : n ≤ cs.length) (p : Position) : p.advance n (cs ++ t) = p.advance n cs := by
  fun_induction Position.advance p n cs with
  | case1 => simp [Position.advance]
  | case2 => cases hn
  | case3 p n c cs ih =>
      have hnext : p.next c (cs ++ t) = p.next c cs := by
        unfold Position.next
        rw [returnsBeforeNewline_append h]
      rw [List.cons_append, Position.advance, hnext]
      exact ih h.of_cons (by simpa using hn)

theorem Position.advance_lead (lead cs : List Char) (n : Nat) (p : Position) :
    p.advance (lead.length + n) (lead ++ cs) = (p.advance lead.length (lead ++ cs)).advance n cs := by
  induction lead generalizing p with
  | nil => simp [Position.advance]
  | cons c lead ih =>
      rw [List.length_cons, Nat.add_right_comm]
      exact ih (p.next c (lead ++ cs))

theorem Position.line_le_advance (n : Nat) (p : Position) (cs : List Char) : p.line ≤ (p.advance n cs).line := by
  fun_induction Position.advance p n cs with
  | case1 | case2 => exact Nat.le_refl _
  | case3 p n c cs ih =>
      have hnext : p.line ≤ (p.next c cs).line := by
        unfold Position.next
        split
        · exact Nat.le_succ _
        · exact Nat.le_refl _
      exact Nat.le_trans hnext ih

namespace Lexer

/-- A place in a text, as a place in the longer text. -/
def within (f : Frame) (s : Lexer) : Lexer :=
  { s with
    rest := s.rest ++ f.behind
    position := f.position s.position
    candidate := s.candidate.map f.candidate
    outerCandidates := s.outerCandidates.map (Option.map f.candidate) }

variable {s : Lexer}

@[simp] theorem inFlow_within (f : Frame) (s : Lexer) : (s.within f).inFlow = s.inFlow := by
  simp [inFlow, within]

theorem position_within_column (f : Frame) (s : Lexer) : (s.within f).position.column = s.position.column := rfl

theorem moveTo_within (h : EndsSolid s.rest) (f : Frame) (rest : List Char) :
    (s.within f).moveTo (rest ++ f.behind) = (s.moveTo rest).within f := by
  have hlen : (s.rest ++ f.behind).length - (rest ++ f.behind).length = s.rest.length - rest.length := by
    simp only [List.length_append]
    omega
  have hpos : (f.position s.position).advance (s.rest.length - rest.length) (s.rest ++ f.behind)
      = f.position (s.position.advance (s.rest.length - rest.length) s.rest) := by
    rw [Position.advance_append h _ (Nat.sub_le _ _), f.position_advance]
  simp only [moveTo, within, hlen, hpos]

/-! ## Possible keys -/

theorem dropCandidate_within (f : Frame) (s : Lexer) :
    (s.within f).dropCandidate = s.dropCandidate.map (within f) := by
  obtain ⟨_, _, _, _, _, candidate, _, _, _⟩ := s
  cases candidate with
  | none => rfl
  | some c =>
      by_cases hr : c.required = true <;> simp [dropCandidate, within, hr]

/-- Whether a node that has to be a key is too far back. -/
def isRefused (p : Position) (c : Option Candidate) : Bool := c.any fun c => isStale p c && c.required

/-- A possible key, unless it is too far back. -/
def kept (p : Position) (c : Option Candidate) : Option Candidate := if c.any (isStale p) then none else c

theorem dropStale_eq (s : Lexer) :
    s.dropStale =
      if isRefused s.position s.candidate || s.outerCandidates.any (isRefused s.position) then none
      else some { s with
        candidate := kept s.position s.candidate
        outerCandidates := s.outerCandidates.map (kept s.position) } := rfl

section Mapped

variable {u : Lexer} {g : Candidate → Candidate}

theorem isRefused_map {p q : Position} (hs : ∀ c, isStale q (g c) = isStale p c)
    (hr : ∀ c, (g c).required = c.required) (c : Option Candidate) : isRefused q (c.map g) = isRefused p c := by
  cases c with
  | none => rfl
  | some c => simp only [isRefused, Option.map_some, Option.any_some, hs, hr]

theorem kept_map {p q : Position} (hs : ∀ c, isStale q (g c) = isStale p c) (c : Option Candidate) :
    kept q (c.map g) = (kept p c).map g := by
  cases c with
  | none => rfl
  | some c => by_cases hc : isStale p c = true <;> simp [kept, hs, hc]

/-- What is given up at a place, where it is known of another place with the same possible keys. -/
theorem dropStale_map (hs : ∀ c, isStale u.position (g c) = isStale s.position c)
    (hr : ∀ c, (g c).required = c.required) (hc : u.candidate = s.candidate.map g)
    (ho : u.outerCandidates = s.outerCandidates.map (Option.map g)) :
    u.dropStale =
      if isRefused s.position s.candidate || s.outerCandidates.any (isRefused s.position) then none
      else some { u with
        candidate := (kept s.position s.candidate).map g
        outerCandidates := (s.outerCandidates.map (kept s.position)).map (Option.map g) } := by
  have hrefused : u.outerCandidates.any (isRefused u.position)
      = s.outerCandidates.any (isRefused s.position) := by
    simp only [ho, List.any_map, Function.comp_def, isRefused_map hs hr]
  have hkept : u.outerCandidates.map (kept u.position)
      = (s.outerCandidates.map (kept s.position)).map (Option.map g) := by
    simp only [ho, List.map_map, Function.comp_def, kept_map hs]
  rw [dropStale_eq, hrefused, hkept, hc, isRefused_map hs hr, kept_map hs]

end Mapped

theorem dropStale_within (f : Frame) (s : Lexer) :
    (s.within f).dropStale = s.dropStale.map (within f) := by
  rw [dropStale_map (s := s) (g := f.candidate) (f.isStale_candidate s.position) f.candidate_required rfl rfl,
    dropStale_eq]
  split <;> rfl

theorem noteCandidate_within (f : Frame) (s : Lexer) :
    (s.within f).noteCandidate = s.noteCandidate.map (within f) := by
  unfold noteCandidate
  rw [dropCandidate_within]
  show (if s.keyAllowed then _ else _) = _
  split
  · cases hd : s.dropCandidate with
    | none => rfl
    | some u =>
        simp only [Option.map_some, bind, Option.bind_some, inFlow_within]
        rfl
  · rfl

/-! ## Indentation -/

theorem closeBlocks_within (f : Frame) (s : Lexer) (margin : Nat) :
    (s.within f).closeBlocks margin = (s.closeBlocks margin).within f := by
  unfold closeBlocks
  rw [inFlow_within]
  split
  · rfl
  · simp only [within]
    split <;> rfl

theorem opensBlock_within (f : Frame) (s : Lexer) (column : Nat) :
    (s.within f).opensBlock column = s.opensBlock column := by
  simp only [opensBlock, inFlow_within]
  rfl

theorem openBlock_within (f : Frame) (s : Lexer) (opening : Token) :
    (s.within f).openBlock opening = (s.openBlock opening).within f := by
  unfold openBlock
  rw [opensBlock_within]
  show (if s.opensBlock s.position.column then _ else _) = _
  split <;> rfl

theorem endDocument_within (f : Frame) (s : Lexer) :
    (s.within f).endDocument = s.endDocument.map (within f) := by
  unfold endDocument
  rw [closeBlocks_within, dropCandidate_within]
  cases (s.closeBlocks 0).dropCandidate <;> rfl

/-! ## White space -/

/-- Fillers without tabs stand for no token. -/
theorem skipToToken_of_filler {t : List Char} (ht : AllFiller t) (htab : '\t' ∉ t) (keyAllowed flow : Bool)
    (column : Nat) (comment : Bool) : (skipToToken keyAllowed flow column comment t).1 = [] := by
  induction t generalizing keyAllowed column comment with
  | nil => rfl
  | cons c t ih =>
      obtain ⟨hc, ht⟩ := List.forall_mem_cons.mp ht
      obtain ⟨hne, htab⟩ := not_or.mp (mt List.mem_cons.mpr htab)
      unfold skipToToken
      split
      · split <;> exact ih ht htab ..
      split
      · exact ih ht htab ..
      · rename_i hbreak _
        have hspace : c = ' ' := by
          simp only [isGap, isBlank, Bool.or_eq_true, beq_iff_eq] at hc
          exact (hc.resolve_right hbreak).resolve_right fun h => hne h.symm
        rw [if_pos (.inl hspace)]
        exact ih ht htab ..

theorem suffix_skipToToken (keyAllowed flow : Bool) (column : Nat) (comment : Bool) (cs : List Char) :
    (skipToToken keyAllowed flow column comment cs).1 <:+ cs := by
  fun_induction skipToToken keyAllowed flow column comment cs with
  | case1 | case8 => exact List.suffix_refl _
  | case2 | case3 | case4 | case5 | case6 | case7 =>
      rename_i ih
      exact ih.trans (List.suffix_cons _ _)

/-- A lexer that passes over some text can start behind it. -/
theorem atToken_moveTo {lead cs : List Char} (hr : s.rest = lead ++ cs) (h : (s.moveTo cs).skipped = s.skipped) :
    (s.moveTo cs).atToken = s.atToken := by
  have hlength : s.skipped.1.length ≤ cs.length := by
    rw [← h]
    exact (suffix_skipToToken ..).length_le
  have hposition : ((s.moveTo cs).moveTo s.skipped.1).position = (s.moveTo s.skipped.1).position := by
    show (s.position.advance (s.rest.length - cs.length) s.rest).advance (cs.length - s.skipped.1.length) cs
      = s.position.advance (s.rest.length - s.skipped.1.length) s.rest
    rw [hr, List.length_append, Nat.add_sub_cancel, ← Position.advance_lead]
    congr 1
    omega
  have hmove : (s.moveTo cs).moveTo s.skipped.1 = s.moveTo s.skipped.1 := by
    show { s with rest := s.skipped.1, position := ((s.moveTo cs).moveTo s.skipped.1).position } = _
    rw [hposition]
    rfl
  rw [atToken_eq, atToken_eq, h, hmove]

/-- A lexer that finds a token finds it with more text behind, too. -/
theorem skipToToken_append {cs : List Char} (h : EndsSolid cs) (t : List Char) (keyAllowed flow : Bool)
    (column : Nat) (comment : Bool) :
    (skipToToken keyAllowed flow column comment cs).1 = []
      ∨ skipToToken keyAllowed flow column comment (cs ++ t)
        = ((skipToToken keyAllowed flow column comment cs).1 ++ t,
            (skipToToken keyAllowed flow column comment cs).2) := by
  induction cs generalizing keyAllowed column comment with
  | nil => exact .inl rfl
  | cons c cs ih =>
      have ih := ih h.of_cons
      rw [List.cons_append]
      unfold skipToToken
      rw [returnsBeforeNewline_append h]
      repeat' split
      any_goals exact ih ..
      exact .inr rfl

/-- A lexer that finds none passes over fillers without tabs as well. -/
theorem skipToToken_append_filler {cs t : List Char} (h : EndsSolid cs) (ht : AllFiller t) (htab : '\t' ∉ t)
    (keyAllowed flow : Bool) (column : Nat) (comment : Bool) :
    (skipToToken keyAllowed flow column comment cs).1 = [] →
      (skipToToken keyAllowed flow column comment (cs ++ t)).1 = [] := by
  induction cs generalizing keyAllowed column comment with
  | nil => exact fun _ => skipToToken_of_filler ht htab ..
  | cons c cs ih =>
      have ih := ih h.of_cons
      rw [List.cons_append]
      unfold skipToToken
      rw [returnsBeforeNewline_append h]
      repeat' split
      any_goals exact ih _ _ _
      intro hend
      contradiction

end Lexer

end Stencil.Yaml
