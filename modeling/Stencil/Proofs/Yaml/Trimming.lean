import Stencil.Proofs.Text.Lines
import Stencil.Proofs.Yaml.Ahead.Run
import Stencil.Yaml.Value.Reader

/-!
# White space around a YAML text

A YAML text is read the same with white space around it that stands for nothing (`parse?_trimmed`). In front of
it that are whole blank lines, which leave the column of its first character as it is, and spaces if the text can
be moved to the right. Behind it that are spaces and line ends, unless it ends in a block scalar that does not
drop them, and tabs behind its last line, unless a key may start there.

The two texts are cut up side by side. As long as the lexer has not come to the end of the shorter one, its places
in the two are the same (`Lexer.within`). At the end all that matters is what is open (`Lexer.outcome`): the
longer text may end on a later line, where a key that stands in brackets has been given up, but the brackets have
not been closed then, and no document is read from either.
-/

namespace Stencil.Yaml

open Stencil.Text

namespace Lexer

variable {f : Frame} {s u : Lexer} {n : Nat}

/-! ## The end of a text -/

/-- The document that the tokens so far make, if the text ends here. -/
def outcome (s : Lexer) : Option (Node String) :=
  if s.inFlow || s.candidate.any (·.required) then none else document? (s.closeBlocks 0).tokens.reverse

theorem outcome_within (f : Frame) (s : Lexer) : (s.within f).outcome = s.outcome := by
  have hrequired : (s.within f).candidate.any (·.required) = s.candidate.any (·.required) := by
    show (s.candidate.map f.candidate).any (·.required) = _
    cases s.candidate <;> rfl
  unfold outcome
  rw [inFlow_within, hrequired, closeBlocks_within]
  rfl

theorem finish_eq (s : Lexer) :
    s.finish = if s.candidate.any (·.required) then none else some (s.closeBlocks 0).tokens.reverse := by
  unfold finish endDocument
  rw [dropCandidate_eq, candidate_closeBlocks]
  split <;> rfl

/-- At the end of a text whose brackets are not closed there is no document. -/
theorem document?_of_inFlow (hb : s.Balanced) (hf : s.inFlow = true) : document? s.tokens.reverse = none := by
  rw [Option.eq_none_iff_forall_ne_some]
  intro node hnode
  have hzero : s.outerCandidates.length = 0 := hb.symm.trans (brackets_of_document? hnode)
  rw [inFlow, List.eq_nil_of_length_eq_zero hzero] at hf
  contradiction

theorem closeBlocks_of_inFlow (hf : s.inFlow = true) (margin : Nat) : s.closeBlocks margin = s := by
  rw [closeBlocks, if_pos hf]

theorem finish_bind_document? (hb : s.Balanced) : s.finish.bind document? = s.outcome := by
  rw [finish_eq, outcome]
  cases hf : s.inFlow with
  | true =>
      rw [closeBlocks_of_inFlow hf]
      split
      · rfl
      · exact document?_of_inFlow hb hf
  | false =>
      simp only [Bool.false_or]
      split <;> rfl

theorem tokens_closeBlocks_congr (hf : u.inFlow = s.inFlow) (hm : u.margin = s.margin)
    (ho : u.outerMargins = s.outerMargins) (ht : u.tokens = s.tokens) (margin : Nat) :
    (u.closeBlocks margin).tokens = (s.closeBlocks margin).tokens := by
  unfold closeBlocks
  rw [hf, hm, ho]
  split
  · exact ht
  · simp only
    split
    · exact ht
    · rw [ht]

/-- The outcome does not depend on where the text ends. -/
theorem outcome_congr (hf : u.inFlow = s.inFlow)
    (hr : u.candidate.any (·.required) = s.candidate.any (·.required)) (hm : u.margin = s.margin)
    (ho : u.outerMargins = s.outerMargins) (ht : u.tokens = s.tokens) : u.outcome = s.outcome := by
  rw [outcome, outcome, hf, hr, tokens_closeBlocks_congr hf hm ho ht]

theorem any_required_kept {p : Position} {c : Option Candidate} (h : isRefused p c = false) :
    (kept p c).any (·.required) = c.any (·.required) := by
  cases c with
  | none => rfl
  | some c =>
      unfold kept
      split
      · rename_i hstale
        simp only [Option.any_some] at hstale
        simpa [isRefused, hstale] using h.symm
      · rfl

/-- What is given up at the end of a text makes no difference there. -/
theorem outcome_of_ready? (hu : s.ready? = some u) : u.outcome = s.outcome := by
  have hready := ready_of_ready? hu
  rw [ready?, dropStale_eq] at hu
  split at hu
  · contradiction
  · rename_i hrefused
    simp only [Bool.or_eq_true, not_or, Bool.not_eq_true] at hrefused
    refine outcome_congr ?_ ?_ hready.margin hready.outerMargins hready.tokens
    · rw [inFlow_of_brackets hready.brackets, inFlow_of_brackets rfl]
    · cases hu
      exact any_required_kept hrefused.1

/-- Where a node is refused for being too far back, no document is read from what there is either. -/
theorem outcome_of_ready?_eq_none (h : s.ready? = none) : s.outcome = none := by
  rw [ready?, dropStale_eq] at h
  split at h
  · rename_i hrefused
    rw [outcome, if_pos]
    rw [Bool.or_eq_true] at hrefused ⊢
    rcases hrefused with hc | hc
    · right
      show s.candidate.any (·.required) = true
      have hc : isRefused s.atToken.position s.candidate = true := hc
      cases hs : s.candidate with
      | none => simp [isRefused, hs] at hc
      | some c => simpa [isRefused, hs] using (by simpa [isRefused, hs] using hc : _ ∧ c.required = true).2
    · left
      obtain ⟨c, hc, -⟩ := List.any_eq_true.mp hc
      have hmem : c ∈ s.outerCandidates := hc
      cases ho : s.outerCandidates with
      | nil => simp [ho] at hmem
      | cons c outer => simp [inFlow, ho]
  · contradiction

theorem run_of_end (hb : s.Balanced) (hend : s.skipped.1 = []) (n : Nat) :
    (run (n + 1) s).bind document? = s.outcome := by
  rw [run_succ]
  cases hu : s.ready? with
  | none => exact (outcome_of_ready?_eq_none hu).symm
  | some u =>
      have hrest : u.rest = [] := (ready_of_ready? hu).rest.trans hend
      simp only [Option.bind_some, hrest]
      rw [finish_bind_document? (hb.of_ready? hu), outcome_of_ready? hu]

/-! ## Two texts side by side -/

theorem skipped_within (f : Frame) (s : Lexer) :
    (s.within f).skipped = skipToToken s.keyAllowed s.inFlow s.position.column false (s.rest ++ f.behind) := by
  rw [skipped, inFlow_within]
  rfl

theorem atToken_within (hs : EndsSolid s.rest) (hne : s.skipped.1 ≠ []) :
    (s.within f).atToken = s.atToken.within f := by
  have he := (skipToToken_append hs f.behind s.keyAllowed s.inFlow s.position.column false).resolve_left hne
  rw [atToken_eq, skipped_within, he, moveTo_within hs]
  rfl

/-- Whether a lexer that has come behind the last token of its text passes over more text there. It does not pass
over a tab where a key may start. -/
def passesOver (t : List Char) : Nat → Lexer → Bool
  | 0, _ => true
  | n + 1, s =>
      if s.skipped.1.isEmpty then
        (skipToToken s.keyAllowed s.inFlow s.position.column false (s.rest ++ t)).1.isEmpty
      else
        s.ready?.all fun s =>
          match s.rest with
          | [] => true
          | c :: cs => ((s.closeBlocks (s.position.column + 1)).token c cs).all (passesOver t n)

/-- The chomping of the block scalar that the text ends in, if it ends in one. -/
def lastBlock? : Nat → Lexer → Option Chomping
  | 0, _ => none
  | n + 1, s =>
      s.ready?.bind fun s =>
        match s.rest with
        | [] => none
        | c :: cs =>
            let s := s.closeBlocks (s.position.column + 1)
            (s.endingBlock? c cs).or ((s.token c cs).bind (lastBlock? n))

theorem lastBlock?_of_end (hend : s.rest = []) (n : Nat) : s.lastBlock? n = none := by
  cases n with
  | zero => rfl
  | succ n =>
      rw [lastBlock?]
      cases hu : s.ready? with
      | none => rfl
      | some u =>
          have hrest : u.rest = [] := by
            rw [(ready_of_ready? hu).rest, skipped_of_rest_eq_nil hend]
          simp only [Option.bind_some, hrest]

theorem token_of_block {c : Char} (hc : c = '|' ∨ c = '>') (hf : s.inFlow = false) (cs : List Char) :
    s.token c cs = s.blockScalar (c == '>') cs := by
  rcases hc with rfl | rfl <;> simp [token, hf, startsDocumentMark]

/-- Behind a block scalar that the text ends in there is nothing. -/
theorem rest_of_endingBlock? {c : Char} {cs : List Char} {chomping : Chomping}
    (h : s.endingBlock? c cs = some chomping) (hu : s.token c cs = some u) : u.rest = [] := by
  unfold endingBlock? at h
  split at h
  · rename_i hc
    rw [token_of_block hc.1 hc.2, blockScalar_eq] at hu
    obtain ⟨v, hv, hu⟩ := Option.bind_eq_some_iff.mp hu
    rw [(rest_of_dropCandidate hv).2] at hu
    split at h
    · rename_i hend _
      rw [hend] at hu
      cases hu
      rfl
    · contradiction
  · contradiction

/-- Once a token has been cut off both texts, the runs go on alike. -/
theorem run_of_follows {found found' : Option Lexer} {m : Nat} (h : Follows f found found')
    (ht : AllFiller f.behind) (hn : 0 < n) (hm : 0 < m) (hb : ∀ u, found = some u → u.Balanced)
    (hi : ∀ u, found = some u → (run m (u.within f)).bind document? = (run n u).bind document?) :
    (found'.bind (run m)).bind document? = (found.bind (run n)).bind document? := by
  obtain ⟨n, rfl⟩ : ∃ k, n = k + 1 := ⟨n - 1, by omega⟩
  obtain ⟨m, rfl⟩ : ∃ k, m = k + 1 := ⟨m - 1, by omega⟩
  cases h with
  | refused => rfl
  | inside u => exact hi u rfl
  | @atEnd u rest hu hr htab p k =>
      have hb : u.Balanced := hb u rfl
      have hend : u.skipped.1 = [] := by rw [skipped_of_rest_eq_nil hu]
      have hfiller : AllFiller rest := fun c hc => ht c (hr.subset hc)
      have hend' : (skipped { u.within f with rest := rest, position := p, keyAllowed := k }).1 = [] :=
        skipToToken_of_filler hfiller htab ..
      have hb' : Balanced { u.within f with rest := rest, position := p, keyAllowed := k } := hb.within f
      rw [Option.bind_some, Option.bind_some, run_of_end hb hend, run_of_end hb' hend',
        ← outcome_within f u]
      exact outcome_congr rfl rfl rfl rfl rfl

/-- **A run on a text with fillers behind it reads the same document**, if they are no part of a block scalar and
it passes over their tabs. -/
theorem run_within (ht : AllFiller f.behind) (htab : TabsFirst f.behind) {m : Nat} (hs : EndsSolid s.rest)
    (hb : s.Balanced) (hd : ∀ chomping, s.lastBlock? n = some chomping → chomping.Drops f.behind)
    (hp : '\t' ∈ f.behind → s.passesOver f.behind n = true) (hn : s.rest.length < n)
    (hm : s.rest.length + f.behind.length < m) :
    (run m (s.within f)).bind document? = (run n s).bind document? := by
  induction n generalizing m s with
  | zero => omega
  | succ n ih =>
      obtain ⟨m, rfl⟩ : ∃ k, m = k + 1 := ⟨m - 1, by omega⟩
      by_cases hend : s.skipped.1 = []
      · -- The shorter text ends here, and what is behind it is passed over.
        have hbehind : (s.within f).skipped.1 = [] := by
          rw [skipped_within]
          by_cases htab' : '\t' ∈ f.behind
          · exact List.isEmpty_iff.mp (by simpa [passesOver, hend] using hp htab')
          · exact skipToToken_append_filler hs ht htab' _ _ _ _ hend
        rw [run_of_end hb hend, run_of_end (hb.within f) hbehind, outcome_within]
      -- A token follows in both texts, the same one unless it runs to the end.
      have hready : (s.within f).ready? = s.ready?.map (within f) := by
        rw [ready?, atToken_within hs hend, dropStale_within]
        rfl
      simp only [passesOver, List.isEmpty_iff, hend, if_false] at hp
      rw [lastBlock?] at hd
      rw [run_succ, run_succ, hready]
      cases hu : s.ready? with
      | none => rfl
      | some u =>
          have hr := ready_of_ready? hu
          obtain ⟨c, cs, hcs⟩ := List.exists_cons_of_ne_nil (hr.rest ▸ hend)
          have hcs' : (u.within f).rest = c :: (cs ++ f.behind) := by
            show u.rest ++ f.behind = _
            rw [hcs]
            rfl
          have hsuffix : c :: cs <:+ s.rest := by
            rw [← hcs, hr.rest]
            exact suffix_skipToToken ..
          have hlength : cs.length < s.rest.length := hsuffix.length_le
          rw [hu] at hd hp
          simp only [Option.map_some, Option.bind_some, Option.all_some, hcs, hcs'] at hd hp ⊢
          rw [position_within_column, closeBlocks_within]
          have hv : (u.closeBlocks (u.position.column + 1)).rest = c :: cs := by rw [rest_closeBlocks, hcs]
          have hbv : (u.closeBlocks (u.position.column + 1)).Balanced := (hb.of_ready? hu).closeBlocks _
          generalize u.closeBlocks (u.position.column + 1) = v at hd hp hv hbv
          have hfollows := follows_token ht htab (hv ▸ hs.of_suffix hsuffix) hv fun chomping hc =>
            hd chomping (by rw [hc]; rfl)
          refine run_of_follows hfollows ht (by omega) (by omega)
            (fun w hw => (advances_token hv hw).2 hbv) fun w hw => ?_
          obtain ⟨hwcs, hbw⟩ := advances_token hv hw
          have hwlength := hwcs.length_le
          rw [hw] at hp
          refine ih ((hs.of_suffix hsuffix).of_cons.of_suffix hwcs) (hbw hbv) (fun chomping hc => ?_) hp
            (by omega) (by omega)
          -- A block scalar that the text ends in has nothing behind it, so none is seen twice.
          cases hending : v.endingBlock? c cs with
          | none => exact hd chomping (by rw [hending, hw]; exact hc)
          | some _ =>
              rw [lastBlock?_of_end (rest_of_endingBlock? hending hw)] at hc
              contradiction

/-! ## Lines in front of a text -/

end Lexer

/-- Whether a text is whole lines of spaces. -/
structure BlankLines (lead : List Char) : Prop where
  spaces : ∀ c ∈ lead, c = ' ' ∨ isBreak c = true
  lines : ∀ c, lead.getLast? = some c → isBreak c = true

section Lead

variable {lead cs : List Char}

theorem BlankLines.of_cons {c : Char} (h : BlankLines (c :: lead)) : BlankLines lead :=
  ⟨(List.forall_mem_cons.mp h.spaces).2, fun d hd => h.lines d (by rw [List.getLast?_cons, hd]; rfl)⟩

theorem BlankLines.all_isAllowed (h : BlankLines lead) : lead.all isAllowed = true := by
  refine List.all_eq_true.mpr fun c hc => ?_
  rcases h.spaces c hc with rfl | hb
  · rfl
  · exact isAllowed_of_isGap (by rw [isGap, hb, Bool.or_true])

/-- Blank lines in front of a text are passed over like nothing. -/
theorem Lexer.skipToToken_lead (hl : BlankLines lead) (hcs : cs.head? ≠ some '\n') {column : Nat}
    (hc : lead = [] → column = 0) :
    Lexer.skipToToken true false column false (lead ++ cs) = Lexer.skipToToken true false 0 false cs := by
  induction lead generalizing column with
  | nil => rw [hc rfl, List.nil_append]
  | cons c lead ih =>
      have ih := @ih hl.of_cons
      rw [List.cons_append, skipToToken]
      split
      · split
        · rename_i hr
          refine ih fun hnil => ?_
          simp only [hnil, List.nil_append, returnsBeforeNewline, Bool.and_eq_true, beq_iff_eq] at hr
          exact absurd hr.2 hcs
        · exact ih fun _ => rfl
      · rename_i hbreak
        have hspace : c = ' ' := (hl.spaces c List.mem_cons_self).resolve_right hbreak
        rw [if_neg (by simp), if_pos (.inl hspace)]
        refine ih fun hnil => ?_
        subst hnil
        exact absurd (hl.lines c rfl) hbreak

theorem Position.column_advance_lead (hl : BlankLines lead) (hcs : cs.head? ≠ some '\n') {p : Position}
    (hc : lead = [] → p.column = 0) : (p.advance lead.length (lead ++ cs)).column = 0 := by
  induction lead generalizing p with
  | nil => exact hc rfl
  | cons c lead ih =>
      refine ih hl.of_cons fun hnil => ?_
      subst hnil
      have hr : returnsBeforeNewline c cs = false := by
        simp [returnsBeforeNewline, hcs]
      simp [Position.next, hl.lines c rfl, hr]

end Lead

/-- The place of a text between blank lines and fillers. -/
def Frame.around (lead core trail : List Char) : Frame :=
  let p := Position.start.advance lead.length (lead ++ (core ++ trail))
  ⟨trail, p.line, p.index⟩

section Around

variable {lead core trail : List Char} (hl : BlankLines lead) (hcs : (core ++ trail).head? ≠ some '\n')
include hl hcs

theorem Frame.position_around :
    (Frame.around lead core trail).position .start
      = Position.start.advance lead.length (lead ++ (core ++ trail)) := by
  have hcolumn := Position.column_advance_lead (p := .start) hl hcs fun _ => rfl
  unfold Frame.around
  generalize Position.start.advance lead.length (lead ++ (core ++ trail)) = p at hcolumn ⊢
  obtain ⟨index, line, column⟩ := p
  obtain rfl : column = 0 := hcolumn
  simp [Frame.position, Position.start]

/-- Behind blank lines, a text starts like it does in its place. -/
theorem Lexer.moveTo_lead :
    (start (lead ++ (core ++ trail))).moveTo (core ++ trail) = (start core).within (.around lead core trail) := by
  have hposition : Position.start.advance ((lead ++ (core ++ trail)).length - (core ++ trail).length)
      (lead ++ (core ++ trail)) = (Frame.around lead core trail).position .start := by
    rw [Frame.position_around hl hcs, List.length_append, Nat.add_sub_cancel]
  exact congrArg (Lexer.mk (core ++ trail) · 0 [] true none [] [] 0) hposition

theorem Lexer.atToken_lead :
    (start (lead ++ (core ++ trail))).atToken = ((start core).within (.around lead core trail)).atToken := by
  rw [← moveTo_lead hl hcs]
  refine (atToken_moveTo rfl ?_).symm
  rw [moveTo_lead hl hcs]
  exact (skipToToken_lead hl hcs fun _ => rfl).symm

end Around

/-! ## The document of a text -/

/-- The chomping of the block scalar that a text ends in, if it ends in one. -/
def lastChomping? (text : List Char) : Option Chomping := (Lexer.start text).lastBlock? (text.length + 1)

/-- Whether white space behind a text stands for nothing. -/
structure EndsCleanly (core trail : List Char) : Prop where
  filler : AllFiller trail
  tabs : TabsFirst trail
  passed : '\t' ∈ trail → (Lexer.start core).passesOver trail (core.length + 1) = true
  dropped : ∀ chomping, lastChomping? core = some chomping → chomping.Drops trail

theorem all_isAllowed_of_filler {t : List Char} (ht : AllFiller t) : t.all isAllowed = true :=
  List.all_eq_true.mpr fun c hc => isAllowed_of_isGap (ht c hc)

theorem document?_of_surrounded {lead core trail : List Char} (hl : BlankLines lead)
    (hcs : (core ++ trail).head? ≠ some '\n') (hs : EndsSolid core) (ht : EndsCleanly core trail) :
    (tokens? (lead ++ (core ++ trail))).bind document? = (tokens? core).bind document? := by
  have hall : (lead ++ (core ++ trail)).all isAllowed = core.all isAllowed := by
    simp [List.all_append, hl.all_isAllowed, all_isAllowed_of_filler ht.filler]
  unfold tokens?
  rw [hall]
  split
  · rw [Lexer.run_congr (Lexer.atToken_lead hl hcs)]
    have hlength : core.length + trail.length < (lead ++ (core ++ trail)).length + 1 := by
      simp only [List.length_append]
      omega
    exact Lexer.run_within (f := .around lead core trail) (s := .start core) ht.filler ht.tabs hs rfl ht.dropped
      ht.passed (Nat.lt_succ_self _) hlength
  · rfl

/-- Whether trimming cuts nothing off a text that matters in YAML: in front, whole lines of spaces, and spaces
if the rest can be moved to the right; behind, white space that stands for nothing. Texts that do not trim cleanly
may mean the same when trimmed all the same, such as a mapping whose only key stands behind spaces. -/
def TrimsCleanly (text : List Char) : Prop :=
  ∃ lead columns trail, text = lead ++ ((List.replicate columns ' ' ++ trim text) ++ trail) ∧ BlankLines lead
    ∧ (columns = 0 ∨ MovesRight (trim text)) ∧ EndsCleanly (List.replicate columns ' ' ++ trim text) trail

/-- **A YAML text is read the same without the white space at its ends**, if none of it matters. -/
theorem parse?_trimmed {text : String} (hb : ¬ AllBlank text.toList) (h : TrimsCleanly text.toList) :
    parse? (trimmed text) = parse? text := by
  obtain ⟨lead, columns, trail, he, hl, hcolumns, ht⟩ := h
  obtain ⟨-, -, -, -, -, hstart, hend⟩ := trim_eq_iff.mp (rfl : trim text.toList = trim text.toList)
  have hne : trim text.toList ≠ [] := fun hnil => hb (trim_eq_nil_iff.mp hnil)
  have htokens : tokens? (List.replicate columns ' ' ++ trim text.toList) = tokens? (trim text.toList) := by
    rcases hcolumns with rfl | hmoves
    · rfl
    · exact tokens?_indented hstart hmoves columns
  have hhead : ((List.replicate columns ' ' ++ trim text.toList) ++ trail).head? ≠ some '\n' := by
    obtain ⟨c, core, hcore⟩ := List.exists_cons_of_ne_nil hne
    rw [hcore, startsSolid_cons] at hstart
    -- Neither a space nor a solid character is a line end.
    cases columns with
    | zero =>
        rw [hcore, List.replicate_zero, List.nil_append, List.cons_append, List.head?_cons, ne_eq,
          Option.some.injEq]
        rintro rfl
        exact absurd hstart (by decide)
    | succ n => exact fun h => absurd (Option.some.inj h) (by decide)
  have hsolid : EndsSolid (List.replicate columns ' ' ++ trim text.toList) := fun c hc => by
    rw [getLast?_append_of_ne_nil _ hne] at hc
    exact hend c hc
  have hdocument := document?_of_surrounded hl hhead hsolid ht
  rw [← he, htokens] at hdocument
  unfold parse? Tree.ofText?
  rw [toList_trimmed]
  simp only [bind]
  rw [← Option.bind_assoc, ← Option.bind_assoc, hdocument]

/-- A line between a space and a tab. -/
example : TrimsCleanly " a: 1\t".toList :=
  have hlast : lastChomping? " a: 1".toList = none := by decide +kernel
  ⟨[], 1, ['\t'], by decide +kernel, ⟨nofun, nofun⟩, .inr ⟨by decide +kernel, .inl (by decide +kernel)⟩, by decide,
    by decide, fun _ => by decide +kernel, fun _ h => nomatch hlast.symm.trans h⟩

/-- Brackets behind spaces, closed on a later line. -/
example : TrimsCleanly "  \x7ba: 1,\nb: 2\x7d".toList :=
  have hlast : lastChomping? "  \x7ba: 1,\nb: 2\x7d".toList = none := by decide +kernel
  ⟨[], 2, [], by decide +kernel, ⟨nofun, nofun⟩, .inr ⟨by decide +kernel, .inr (by decide +kernel)⟩, nofun,
    by decide, nofun, fun _ h => nomatch hlast.symm.trans h⟩

end Stencil.Yaml
