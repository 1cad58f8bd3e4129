import Stencil.Proofs.Yaml.Ahead.Place

/-!
# Tokens of a text moved to the right

A token that is cut off the moved text is the one that is cut off the text (`Lexer.Shifts`), if the block
collection that it opens, or the one around it, is moved with the line it starts on (`Lexer.Levels`). A margin
makes a difference to scalars only behind a line end.

Main statement: `Lexer.shifts_token`.
-/

namespace Stencil.Yaml

open Stencil.Text

/-! ## Margins of scalars -/

/-- What looks at a margin behind line ends only does not see that the margin is moved. -/
theorem Indent.Moves.margin_congr {i : Indent} {cs : List Char} {β : Type} (h : i.Moves cs) (f : Nat → β)
    (hf : Unbroken cs → ∀ m m', f m = f m') {m : Nat} : f (i.margin m) = f m := by
  cases hw : i.whole with
  | true => exact hf (h hw) _ _
  | false =>
      have hm : i.margin m = m := by
        simp only [Indent.margin, Indent.marginShift, hw]
        split
        · exact (by assumption : m = 0).symm
        · rfl
      rw [hm]

section Unbroken

variable {cs : List Char} (h : Unbroken cs)
include h

theorem plain_of_unbroken {flow afterGap : Bool} {gap : Gap} (hg : gap.column? = none) (margin margin' : Nat) :
    plain flow margin gap afterGap cs = plain flow margin' gap afterGap cs := by
  induction cs generalizing gap afterGap with
  | nil => rfl
  | cons c cs ih =>
      obtain ⟨hc, h⟩ := List.forall_mem_cons.mp h
      have hblank : (gap.addBlank c).column? = none := by
        cases gap with
        | blanks => rfl
        | breaks => cases hg
      simp only [plain, hc, hg, leavesPlain, Option.any_none, Bool.false_eq_true, if_false, ih h hg, ih h hblank,
        ih h Gap.column?_empty]

theorem lineEnd?_of_unbroken {rest : List Char} (hr : lineEnd? cs = some rest) : rest = [] := by
  rw [lineEnd?_eq] at hr
  have hbehind : Unbroken (skipComment (skipBlanks cs)) := fun c hc =>
    h c (((suffix_skipComment _).trans (suffix_skipBlanks cs)).subset hc)
  generalize skipComment (skipBlanks cs) = behind at hr hbehind
  unfold afterBreak? at hr
  split at hr
  · exact (Option.some.inj hr).symm
  · exact absurd (hbehind '\r' List.mem_cons_self) (by decide)
  · rw [hbehind _ List.mem_cons_self] at hr
    contradiction

/-- A block scalar on the last line of a text has no lines whose indentation could be asked for. -/
theorem blockScalar_of_unbroken (folded : Bool) (margin margin' : Nat) :
    blockScalar folded margin cs = blockScalar folded margin' cs := by
  unfold blockScalar
  cases hsigns : blockSigns? cs with
  | none => rfl
  | some p =>
      obtain ⟨header, rest⟩ := p
      simp only [bind, Option.bind_some]
      cases hend : lineEnd? rest with
      | none => rfl
      | some rest' =>
          obtain rfl := lineEnd?_of_unbroken (fun c hc => h c ((leaves_blockSigns? cs hsigns).subset hc)) hend
          cases header.increment <;> rfl

end Unbroken

namespace Lexer

variable {i : Indent} {s u : Lexer} {c : Char} {cs : List Char}

/-! ## Later places -/

/-- Whether the position of a place follows from another and from what is left of the text. -/
def Moved (s u : Lexer) : Prop := u.position = (s.moveTo u.rest).position

/-- Where no line mark can stand, none can stand later either, since a line only starts behind a line end. -/
theorem Steady.later (h : s.Steady i) (hr : u.rest <:+ s.rest) (hm : Moved s u)
    (ha : u.margin ≠ 0 → i.shift s.position.line = i.marginShift) : u.Steady i := by
  have hline : s.position.line ≤ u.position.line := hm ▸ Position.line_le_advance ..
  refine ⟨h.moves.of_suffix hr, fun hu => Indent.shift_eq_of_le (ha hu) hline, fun hi hc => ?_⟩
  have hsame : u.position.line = s.position.line := by
    cases hw : i.whole with
    | true => rw [hm]; exact Position.line_advance_of_unbroken (h.moves hw) _
    | false =>
        have hzero : u.position.line = 0 := by
          by_contra hne
          simp [Indent.shift, hw, hne] at hi
        omega
  have hcolumn : u.position.column = s.position.column + (s.rest.length - u.rest.length) := by
    rw [hm] at hsame ⊢
    exact Position.column_advance (Nat.sub_le _ _) hsame
  have hlength := hr.length_le
  have hrest : u.rest = s.rest := hr.eq_of_length (by omega)
  rw [hrest]
  exact h.movable (hsame ▸ hi) (by omega)

theorem moved_of_ready? (h : s.ready? = some u) : Moved s u := by
  rw [ready?, dropStale_eq] at h
  split at h
  · contradiction
  · cases h
    rfl

theorem position_closeBlocks (s : Lexer) (margin : Nat) : (s.closeBlocks margin).position = s.position := by
  obtain ⟨_, _, _, _, h⟩ := exists_of_closeBlocks s margin
  rw [h]

theorem candidate_closeBlocks (s : Lexer) (margin : Nat) : (s.closeBlocks margin).candidate = s.candidate := by
  obtain ⟨_, _, _, _, h⟩ := exists_of_closeBlocks s margin
  rw [h]

theorem position_openBlock (s : Lexer) (opening : Token) : (s.openBlock opening).position = s.position := by
  obtain ⟨_, _, _, _, h⟩ := exists_of_openBlock s opening
  rw [h]

theorem position_openKey (s : Lexer) (c : Candidate) : (s.openKey c).position = s.position := (of_openKey s c).2.1

theorem position_of_endDocument (h : s.endDocument = some u) : u.position = s.position := by
  obtain ⟨v, hv, h⟩ := Option.bind_eq_some_iff.mp h
  cases h
  obtain rfl := eq_of_dropCandidate hv
  exact position_closeBlocks s 0

theorem moved_of_moveTo {v : Lexer} (hr : v.rest = s.rest) (hp : v.position = s.position)
    (h : u.position = (v.moveTo u.rest).position) : Moved s u := by
  rw [Moved, h]
  show v.position.advance _ v.rest = _
  rw [hr, hp]
  rfl

theorem moved_of_node {read : Option (Token × List Char)} (h : s.node read = some u) : Moved s u := by
  obtain ⟨v, hv, h⟩ := Option.bind_eq_some_iff.mp h
  obtain ⟨candidate, rfl⟩ := exists_of_noteCandidate hv
  obtain ⟨p, -, h⟩ := Option.bind_eq_some_iff.mp h
  cases h
  rfl

theorem moved_of_plainScalar (h : s.plainScalar = some u) : Moved s u := by
  obtain ⟨v, hv, h⟩ := Option.bind_eq_some_iff.mp h
  obtain ⟨candidate, rfl⟩ := exists_of_noteCandidate hv
  obtain ⟨p, -, h⟩ := Option.bind_eq_some_iff.mp h
  cases h
  rfl

theorem moved_of_blockScalar {folded : Bool} (h : s.blockScalar folded cs = some u) : Moved s u := by
  obtain ⟨v, hv, h⟩ := Option.bind_eq_some_iff.mp h
  obtain rfl := eq_of_dropCandidate hv
  obtain ⟨p, -, h⟩ := Option.bind_eq_some_iff.mp h
  cases h
  rfl

theorem moved_of_openFlow {token : Token} (h : s.openFlow token cs = some u) : Moved s u := by
  obtain ⟨v, hv, h⟩ := Option.bind_eq_some_iff.mp h
  obtain ⟨candidate, rfl⟩ := exists_of_noteCandidate hv
  cases h
  rfl

theorem moved_of_closeFlow {token : Token} (h : s.closeFlow token cs = some u) : Moved s u := by
  rw [closeFlow_eq] at h
  obtain ⟨v, hv, h⟩ := Option.bind_eq_some_iff.mp h
  obtain rfl := eq_of_dropCandidate hv
  cases h
  refine moved_of_moveTo (v := closeBracket { s with candidate := none }) (rest_closeBracket _) ?_ rfl
  unfold closeBracket
  split <;> rfl

theorem moved_of_flowEntry (h : s.flowEntry cs = some u) : Moved s u := by
  obtain ⟨v, hv, h⟩ := Option.bind_eq_some_iff.mp h
  obtain rfl := eq_of_dropCandidate hv
  cases h
  rfl

theorem moved_of_blockMark {opening mark : Token} {k : Bool → Bool}
    (h : ((s.openBlock opening).dropCandidate.bind fun v =>
      some { (v.moveTo cs).emit mark with keyAllowed := k v.inFlow }) = some u) : Moved s u := by
  obtain ⟨v, hv, h⟩ := Option.bind_eq_some_iff.mp h
  obtain rfl := eq_of_dropCandidate hv
  cases h
  exact moved_of_moveTo (rest_openBlock s opening) (position_openBlock s opening) rfl

theorem moved_of_blockEntry (h : s.blockEntry cs = some u) : Moved s u := by
  unfold blockEntry at h
  split at h
  · contradiction
  · exact moved_of_blockMark (k := fun _ => true) h

theorem moved_of_keyMark (h : s.keyMark cs = some u) : Moved s u := by
  unfold keyMark at h
  split at h
  · contradiction
  · exact moved_of_blockMark (k := (!·)) h

theorem moved_of_valueMark (h : s.valueMark cs = some u) : Moved s u := by
  cases hc : s.candidate with
  | some c =>
      rw [valueMark_of_candidate hc] at h
      cases h
      exact moved_of_moveTo (rest_openKey s c) (position_openKey s c) rfl
  | none =>
      unfold valueMark at h
      simp only [hc] at h
      split at h
      · contradiction
      · cases h
        exact moved_of_moveTo (rest_openBlock s .blockMapping) (position_openBlock s .blockMapping) rfl

theorem moved_of_directive (h : s.directive cs = some u) : Moved s u := by
  obtain ⟨v, hv, h⟩ := Option.bind_eq_some_iff.mp h
  obtain ⟨p, -, h⟩ := Option.bind_eq_some_iff.mp h
  obtain ⟨rest, -, h⟩ := Option.bind_eq_some_iff.mp h
  cases h
  exact moved_of_moveTo (rest_of_endDocument hv) (position_of_endDocument hv) rfl

theorem moved_of_documentMark {token : Token} (h : s.documentMark token = some u) : Moved s u := by
  obtain ⟨v, hv, h⟩ := Option.bind_eq_some_iff.mp h
  cases h
  exact moved_of_moveTo (rest_of_endDocument hv) (position_of_endDocument hv) rfl

theorem moved_ite {p : Prop} [Decidable p] {a b : Option Lexer} (ha : a = some u → Moved s u)
    (hb : b = some u → Moved s u) : (if p then a else b) = some u → Moved s u := by
  split
  · exact ha
  · exact hb

/-- **Every token goes on from the position of its place.** -/
theorem moved_of_token : s.token c cs = some u → Moved s u := by
  unfold token
  simp only
  refine moved_ite moved_of_directive ?_
  refine moved_ite moved_of_documentMark ?_
  refine moved_ite moved_of_openFlow (moved_ite moved_of_openFlow ?_)
  refine moved_ite moved_of_closeFlow (moved_ite moved_of_closeFlow ?_)
  refine moved_ite moved_of_flowEntry ?_
  refine moved_ite moved_of_blockEntry ?_
  refine moved_ite moved_of_keyMark ?_
  refine moved_ite moved_of_valueMark ?_
  refine moved_ite moved_of_node (moved_ite moved_of_node (moved_ite moved_of_node ?_))
  refine moved_ite moved_of_blockScalar (moved_ite moved_of_blockScalar ?_)
  refine moved_ite moved_of_node (moved_ite moved_of_node ?_)
  exact moved_ite moved_of_plainScalar fun h => nomatch h

/-! ## Tokens -/

/-- Whether the block collections that a token opens are moved with the line that the token starts on. -/
def Levels (i : Indent) (s : Lexer) (found : Option Lexer) : Prop :=
  ∀ u, found = some u → u.margin ≠ 0 → i.shift s.position.line = i.marginShift

/-- Whether a token is the same in the moved text, if what it opens is moved with it. -/
def Shifts (i : Indent) (s : Lexer) (found found' : Option Lexer) : Prop :=
  Levels i s found → found' = found.map (indented i)

theorem shifts_ite {p : Prop} [Decidable p] {a b a' b' : Option Lexer} (ha : p → Shifts i s a a')
    (hb : ¬ p → Shifts i s b b') : Shifts i s (if p then a else b) (if p then a' else b') := by
  split
  · exact ha ‹p›
  · exact hb ‹¬ p›

theorem shifts_bind {first first' : Option Lexer} (h : first' = first.map (indented i))
    {next next' : Lexer → Option Lexer}
    (hnext : ∀ u, first = some u → Shifts i s (next u) (next' (u.indented i))) :
    Shifts i s (first.bind next) (first'.bind next') := by
  subst h
  cases first with
  | none => exact fun _ => rfl
  | some u => exact hnext u rfl

theorem cut_indented (h : i.Moves s.rest) (token : Token) (keyAllowed : Bool) (rest : List Char) :
    (s.indented i).cut token keyAllowed rest = (s.cut token keyAllowed rest).indented i := by
  unfold cut
  rw [moveTo_indented h]
  rfl

/-- Giving up a possible key and opening a block collection do not get in each other's way. -/
theorem dropCandidate_openBlock (t : Token) (s : Lexer) :
    (s.openBlock t).dropCandidate = s.dropCandidate.map (·.openBlock t) := by
  have hcandidate : (s.openBlock t).candidate = s.candidate := by
    obtain ⟨_, _, _, _, h⟩ := exists_of_openBlock s t
    rw [h]
  have hopen : openBlock { s with candidate := none } t = { s.openBlock t with candidate := none } := by
    unfold openBlock
    show (if s.opensBlock s.position.column then _ else _) = _
    split <;> rfl
  rw [dropCandidate_eq, dropCandidate_eq, hcandidate]
  split
  · rfl
  · rw [Option.map_some, hopen]

section Tokens

variable (hm : i.Moves s.rest) (ha : s.Agrees i)
include hm

theorem shifts_closeFlow (token : Token) (cs : List Char) :
    Shifts i s (s.closeFlow token cs) ((s.indented i).closeFlow token cs) := by
  rw [closeFlow_eq, closeFlow_eq]
  refine shifts_bind (dropCandidate_indented i s) fun u hu _ => ?_
  have hbracket : (u.indented i).closeBracket = u.closeBracket.indented i := by
    obtain ⟨_, _, _, _, _, _, outerCandidates, _, _⟩ := u
    cases outerCandidates <;> rfl
  rw [hbracket, moveTo_indented (by rw [rest_closeBracket, (rest_of_dropCandidate hu).1]; exact hm)]
  rfl

theorem shifts_flowEntry (cs : List Char) : Shifts i s (s.flowEntry cs) ((s.indented i).flowEntry cs) := by
  refine shifts_bind (dropCandidate_indented i s) fun u hu _ => ?_
  rw [moveTo_indented ((rest_of_dropCandidate hu).1 ▸ hm)]
  rfl

theorem shifts_directive (cs : List Char) : Shifts i s (s.directive cs) ((s.indented i).directive cs) := by
  rw [directive_eq, directive_eq]
  refine shifts_bind (endDocument_indented i s) fun u hu _ => ?_
  cases directiveLine? cs with
  | none => rfl
  | some p => exact congrArg some (cut_indented (rest_of_endDocument hu ▸ hm) ..)

theorem shifts_documentMark (token : Token) :
    Shifts i s (s.documentMark token) ((s.indented i).documentMark token) := by
  refine shifts_bind (endDocument_indented i s) fun u hu _ => ?_
  show some (((u.indented i).moveTo (u.rest.drop 3)).emit token) = _
  rw [moveTo_indented (rest_of_endDocument hu ▸ hm)]
  rfl

theorem shifts_blockMark (opening mark : Token) (k : Bool → Bool) (cs : List Char) :
    Shifts i s
      ((s.openBlock opening).dropCandidate.bind fun v =>
        some { (v.moveTo cs).emit mark with keyAllowed := k v.inFlow })
      (((s.indented i).openBlock opening).dropCandidate.bind fun v =>
        some { (v.moveTo cs).emit mark with keyAllowed := k v.inFlow }) := by
  rw [dropCandidate_openBlock, dropCandidate_openBlock, Option.bind_map, Option.bind_map]
  refine shifts_bind (dropCandidate_indented i s) fun u hu hl => ?_
  obtain rfl := eq_of_dropCandidate hu
  have hopen := openBlock_indented (s := { s with candidate := none }) (t := opening) fun hne => hl _ rfl hne
  have hm' : i.Moves (openBlock { s with candidate := none } opening).rest := by
    rw [rest_openBlock]
    exact hm
  simp only [Function.comp_apply]
  rw [hopen, inFlow_indented, moveTo_indented hm']
  rfl

theorem shifts_blockEntry (cs : List Char) : Shifts i s (s.blockEntry cs) ((s.indented i).blockEntry cs) := by
  unfold blockEntry
  rw [inFlow_indented]
  exact shifts_ite (fun _ _ => rfl) fun _ => shifts_blockMark hm _ _ (fun _ => true) cs

theorem shifts_keyMark (cs : List Char) : Shifts i s (s.keyMark cs) ((s.indented i).keyMark cs) := by
  unfold keyMark
  rw [inFlow_indented]
  exact shifts_ite (fun _ _ => rfl) fun _ => shifts_blockMark hm _ _ (!·) cs

/-- A possible key stands on the line of its colon, so that a block collection which opens there moves with it. -/
theorem shifts_valueMark (hc : ∀ c, s.candidate = some c → s.position.line ≤ c.position.line) (cs : List Char) :
    Shifts i s (s.valueMark cs) ((s.indented i).valueMark cs) := by
  intro hl
  cases he : s.candidate with
  | some c =>
      -- The mapping opens where its first key stands, and that is not on an earlier line.
      have he' : (s.indented i).candidate = some (i.candidate c) := by rw [candidate_indented, he, Option.map_some]
      rw [valueMark_of_candidate he] at hl ⊢
      rw [valueMark_of_candidate he', openKey_indented fun hne =>
        Indent.shift_eq_of_le (hl _ rfl hne) (hc c he), moveTo_indented (rest_openKey s c ▸ hm)]
      rfl
  | none =>
      have he' : (s.indented i).candidate = none := by rw [candidate_indented, he, Option.map_none]
      unfold valueMark at hl ⊢
      simp only [he, he'] at hl ⊢
      rw [inFlow_indented]
      refine shifts_ite (fun _ _ => rfl) (fun _ hl => ?_) hl
      rw [openBlock_indented fun hne => hl _ rfl hne, moveTo_indented (rest_openBlock s .blockMapping ▸ hm),
        inFlow_indented]
      rfl

theorem shifts_blockScalar (folded : Bool) (hcs : i.Moves cs) :
    Shifts i s (s.blockScalar folded cs) ((s.indented i).blockScalar folded cs) := by
  rw [blockScalar_eq, blockScalar_eq]
  refine shifts_bind (dropCandidate_indented i s) fun u hu _ => ?_
  have hrest : i.Moves u.rest := (rest_of_dropCandidate hu).1 ▸ hm
  have hblock : Yaml.blockScalar folded (i.margin u.margin) cs = Yaml.blockScalar folded u.margin cs :=
    hcs.margin_congr (Yaml.blockScalar folded · cs) fun hunbroken => blockScalar_of_unbroken hunbroken folded
  show Option.map _ (Yaml.blockScalar folded (i.margin u.margin) cs) = _
  rw [hblock]
  cases Yaml.blockScalar folded u.margin cs with
  | none => rfl
  | some p => exact congrArg some (cut_indented hrest ..)

include ha

theorem shifts_openFlow (token : Token) (cs : List Char) :
    Shifts i s (s.openFlow token cs) ((s.indented i).openFlow token cs) := by
  refine shifts_bind (noteCandidate_indented ha) fun u hu _ => ?_
  rw [moveTo_indented ((rest_of_noteCandidate hu).1 ▸ hm)]
  rfl

theorem shifts_node (read : Option (Token × List Char)) :
    Shifts i s (s.node read) ((s.indented i).node read) := by
  rw [node_eq, node_eq]
  refine shifts_bind (noteCandidate_indented ha) fun u hu _ => ?_
  cases read with
  | none => rfl
  | some p => exact congrArg some (cut_indented ((rest_of_noteCandidate hu).1 ▸ hm) ..)

theorem shifts_plainScalar : Shifts i s s.plainScalar (s.indented i).plainScalar := by
  rw [plainScalar_eq, plainScalar_eq]
  refine shifts_bind (noteCandidate_indented ha) fun u hu _ => ?_
  have hrest : i.Moves u.rest := (rest_of_noteCandidate hu).1 ▸ hm
  have hplain : plain u.inFlow (i.margin u.margin) .empty false u.rest
      = plain u.inFlow u.margin .empty false u.rest :=
    hrest.margin_congr (plain u.inFlow · .empty false u.rest) fun hunbroken => plain_of_unbroken hunbroken rfl
  rw [inFlow_indented]
  show Option.map _ (Option.map _ (plain u.inFlow (i.margin u.margin) .empty false u.rest)) = _
  rw [hplain]
  cases plain u.inFlow u.margin .empty false u.rest with
  | none => rfl
  | some p => exact congrArg some (cut_indented hrest ..)

end Tokens

/-- What counts at the start of a line only counts in the moved text where it counts in the text. -/
theorem Steady.column_eq_zero_iff (h : s.Steady i) {p : Prop} (hp : p → startsWithLineMark s.rest = true) :
    (s.indented i).position.column = 0 ∧ p ↔ s.position.column = 0 ∧ p := by
  show s.position.column + i.shift s.position.line = 0 ∧ p ↔ _
  refine ⟨fun ⟨hc, h⟩ => ⟨by omega, h⟩, fun ⟨hc, hmark⟩ => ⟨?_, hmark⟩⟩
  by_contra hne
  have hmovable := (h.movable (by omega) hc).1
  rw [hp hmark] at hmovable
  contradiction

/-- **A token is the same in the moved text**, if the block collections that it opens are moved with it. -/
theorem shifts_token (h : s.Steady i) (hr : s.rest = c :: cs)
    (hc : ∀ c, s.candidate = some c → s.position.line ≤ c.position.line) :
    Shifts i s (s.token c cs) ((s.indented i).token c cs) := by
  obtain ⟨hm, ha, -⟩ := id h
  -- Only directives and marks between documents ask for the first column, and a text that starts with one is
  -- not moved.
  have hdirective : (s.indented i).position.column = 0 ∧ c = '%' ↔ s.position.column = 0 ∧ c = '%' :=
    h.column_eq_zero_iff fun hc => by simp [hr, startsWithLineMark, hc]
  have hmark : (s.indented i).position.column = 0 ∧ startsDocumentMark (c :: cs) = true
      ↔ s.position.column = 0 ∧ startsDocumentMark (c :: cs) = true :=
    h.column_eq_zero_iff fun hc => by simp [hr, startsWithLineMark, hc]
  have hcs : i.Moves cs := hm.of_suffix (hr ▸ List.suffix_cons c cs)
  unfold token
  simp only [inFlow_indented, hdirective, hmark]
  refine shifts_ite (fun _ => shifts_directive hm cs) fun _ => ?_
  refine shifts_ite (fun _ => shifts_documentMark hm _) fun _ => ?_
  refine shifts_ite (fun _ => shifts_openFlow hm ha _ cs) fun _ => ?_
  refine shifts_ite (fun _ => shifts_openFlow hm ha _ cs) fun _ => ?_
  refine shifts_ite (fun _ => shifts_closeFlow hm _ cs) fun _ => ?_
  refine shifts_ite (fun _ => shifts_closeFlow hm _ cs) fun _ => ?_
  refine shifts_ite (fun _ => shifts_flowEntry hm cs) fun _ => ?_
  refine shifts_ite (fun _ => shifts_blockEntry hm cs) fun _ => ?_
  refine shifts_ite (fun _ => shifts_keyMark hm cs) fun _ => ?_
  refine shifts_ite (fun _ => shifts_valueMark hm hc cs) fun _ => ?_
  refine shifts_ite (fun _ => shifts_node hm ha _) fun _ => ?_
  refine shifts_ite (fun _ => shifts_node hm ha _) fun _ => ?_
  refine shifts_ite (fun _ => shifts_node hm ha _) fun _ => ?_
  refine shifts_ite (fun _ => shifts_blockScalar hm false hcs) fun _ => ?_
  refine shifts_ite (fun _ => shifts_blockScalar hm true hcs) fun _ => ?_
  refine shifts_ite (fun _ => shifts_node hm ha _) fun _ => ?_
  refine shifts_ite (fun _ => shifts_node hm ha _) fun _ => ?_
  exact shifts_ite (fun _ => shifts_plainScalar hm ha) fun _ _ => rfl

end Lexer

end Stencil.Yaml
