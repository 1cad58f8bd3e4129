import Stencil.Yaml.Token.Lexer

/-!
# Cutting one token off

The run of a lexer goes from one place in front of a token to the next (`run_succ`). On the way there it only
passes over white space and gives up possible keys (`Ready`). Which token is cut off depends on its first
character; a character that is no indicator starts a plain scalar (`token_of_word`). Outside of all block
collections there is nothing to close, and no node has to be a key.
-/

namespace Stencil.Yaml.Lexer

variable {s t u : Lexer} {cs : List Char} {tok : Token} {k : Nat}

/-- The place in front of the next token, or at the end of the text. -/
def ready? (s : Lexer) : Option Lexer := s.atToken.dropStale

theorem run_succ (n : Nat) (s : Lexer) :
    run (n + 1) s = s.ready?.bind fun s =>
      match s.rest with
      | [] => s.finish
      | c :: cs => ((s.closeBlocks (s.position.column + 1)).token c cs).bind (run n) := by
  rw [run, ready?]
  cases s.atToken.dropStale with
  | none => rfl
  | some s =>
      show (match s.rest with
        | [] => s.finish
        | c :: cs => ((s.closeBlocks (s.position.column + 1)).token c cs).bind (run n)) = _
      rfl

/-! ## In front of a token -/

/-- What is left of a text when the white space in front of the next token has been passed over, and whether
a key may start there. -/
def skipped (s : Lexer) : List Char × Bool :=
  skipToToken s.keyAllowed s.inFlow s.position.column false s.rest

theorem atToken_eq (s : Lexer) :
    s.atToken = { s.moveTo s.skipped.1 with keyAllowed := s.skipped.2 } := rfl

/-- Whether no possible key has to be one. -/
def Lenient (s : Lexer) : Prop :=
  ∀ c, s.candidate = some c ∨ some c ∈ s.outerCandidates → c.required = false

/-- How a place in front of a token differs from the place before the white space. -/
structure Ready (s t : Lexer) : Prop where
  rest : t.rest = s.skipped.1
  keyAllowed : t.keyAllowed = s.skipped.2
  margin : t.margin = s.margin
  outerMargins : t.outerMargins = s.outerMargins
  tokens : t.tokens = s.tokens
  brackets : t.outerCandidates.length = s.outerCandidates.length
  lenient : s.Lenient → t.Lenient

theorem skipped_of_word {c : Char} {cs : List Char} (h : s.rest = c :: cs) (hg : isGap c = false)
    (hc : c ≠ '#') (hf : c ≠ '\ufeff') : s.skipped = (c :: cs, s.keyAllowed) := by
  simp only [isGap, isBlank, Bool.or_eq_false_iff, beq_eq_false_iff_ne] at hg
  simp [skipped, skipToToken, h, hg, hc, hf]

theorem skipped_of_rest_eq_nil (h : s.rest = []) : s.skipped = ([], s.keyAllowed) := by
  rw [skipped, h]
  rfl

theorem ready_of_ready? (h : s.ready? = some t) : Ready s t := by
  simp only [ready?, dropStale] at h
  split at h
  · contradiction
  · cases h
    refine ⟨rfl, rfl, rfl, rfl, rfl, List.length_map _, fun hs c hc => hs c ?_⟩
    rcases hc with hc | hc
    · left
      simp only at hc
      split at hc
      · contradiction
      · exact hc
    · right
      obtain ⟨d, hd, he⟩ := List.mem_map.mp hc
      split at he
      · contradiction
      · exact he ▸ hd

/-- Where no node has to be a key, the next token can be gone to. -/
theorem exists_ready (h : s.Lenient) : ∃ t, s.ready? = some t ∧ Ready s t := by
  have hr : ∃ t, s.ready? = some t := by
    have hcandidate : (s.atToken.candidate.any fun c =>
        isStale s.atToken.position c && c.required) = false := by
      cases hc : s.atToken.candidate with
      | none => rfl
      | some c => simp [h c (.inl hc)]
    have houter : (s.atToken.outerCandidates.any fun c : Option Candidate => c.any fun c =>
        isStale s.atToken.position c && c.required) = false := by
      rw [List.any_eq_false]
      intro c hc
      cases c with
      | none => simp
      | some c => simp [h c (.inr hc)]
    simp only [ready?, dropStale, hcandidate, houter]
    exact ⟨_, rfl⟩
  obtain ⟨t, ht⟩ := hr
  exact ⟨t, ht, ready_of_ready? ht⟩

/-! ## Tokens -/

/-- The characters that start another token than a plain scalar, or none. -/
def indicators : List Char :=
  ['-', '?', ':', ',', '[', ']', '\x7b', '\x7d', '#', '&', '*', '!', '|', '>', '\'', '"', '%', '@', '\u0060']

theorem isIndicator_eq_false_of_forall {c : Char} (h : ∀ d ∈ indicators, c ≠ d) :
    isIndicator c = false := by
  simp only [indicators, List.forall_mem_cons] at h
  simp [isIndicator, h]

/-- **A character that is no indicator starts a plain scalar.** -/
theorem token_of_word {c : Char} {cs : List Char} (hg : isGap c = false)
    (hi : isIndicator c = false) (hm : startsDocumentMark (c :: cs) = false) :
    s.token c cs = s.plainScalar := by
  have hp : startsPlain s.inFlow c cs = true := by simp [startsPlain, hg, hi]
  simp only [isIndicator, Bool.or_eq_false_iff, beq_eq_false_iff_ne] at hi
  simp [token, hm, hp, hi]

/-! ## Possible keys -/

theorem dropCandidate_eq (s : Lexer) :
    s.dropCandidate = if s.candidate.any (·.required) then none else some { s with candidate := none } := by
  obtain ⟨_, _, _, _, _, candidate, _, _, _⟩ := s
  cases candidate <;> rfl

theorem eq_of_dropCandidate (h : s.dropCandidate = some t) : t = { s with candidate := none } := by
  rw [dropCandidate_eq] at h
  split at h
  · contradiction
  · exact (Option.some.inj h).symm

theorem exists_of_noteCandidate (h : s.noteCandidate = some t) :
    ∃ candidate, t = { s with candidate := candidate } := by
  unfold noteCandidate at h
  split at h
  · obtain ⟨u, hu, h⟩ := Option.bind_eq_some_iff.mp h
    obtain rfl := eq_of_dropCandidate hu
    exact ⟨_, (Option.some.inj h).symm⟩
  · exact ⟨s.candidate, (Option.some.inj h).symm⟩

/-! ## What a token leaves -/

/-- A token that was cut off, and what is known of the place behind it. -/
structure Emits (s : Lexer) (tok : Token) (rest : List Char) (k : Nat) (u : Lexer) : Prop where
  rest : u.rest = rest
  brackets : u.outerCandidates.length = k
  margin : u.margin = s.margin
  tokens : u.tokens = tok :: s.tokens

theorem emits_of_openFlow (h : s.openFlow tok cs = some u) :
    Emits s tok cs (s.outerCandidates.length + 1) u := by
  obtain ⟨t, ht, h⟩ := Option.bind_eq_some_iff.mp h
  obtain ⟨candidate, rfl⟩ := exists_of_noteCandidate ht
  cases h
  exact ⟨rfl, rfl, rfl, rfl⟩

theorem emits_of_closeFlow (h : s.closeFlow tok cs = some u) :
    Emits s tok cs (s.outerCandidates.length - 1) u := by
  obtain ⟨t, ht, h⟩ := Option.bind_eq_some_iff.mp h
  obtain rfl := eq_of_dropCandidate ht
  cases h
  cases hc : s.outerCandidates with
  | nil => exact ⟨rfl, by simp [moveTo, emit], rfl, rfl⟩
  | cons candidate outer => exact ⟨rfl, rfl, rfl, rfl⟩

theorem emits_of_flowEntry (h : s.flowEntry cs = some u) :
    Emits s .flowEntry cs s.outerCandidates.length u := by
  obtain ⟨t, ht, h⟩ := Option.bind_eq_some_iff.mp h
  obtain rfl := eq_of_dropCandidate ht
  cases h
  exact ⟨rfl, rfl, rfl, rfl⟩

theorem emits_of_node {read : Option (Token × List Char)} (h : s.node read = some u) :
    ∃ tok rest, read = some (tok, rest) ∧ Emits s tok rest s.outerCandidates.length u := by
  obtain ⟨t, ht, h⟩ := Option.bind_eq_some_iff.mp h
  obtain ⟨candidate, rfl⟩ := exists_of_noteCandidate ht
  obtain ⟨⟨tok, rest⟩, hr, h⟩ := Option.bind_eq_some_iff.mp h
  cases h
  exact ⟨tok, rest, hr, rfl, rfl, rfl, rfl⟩

theorem emits_of_plainScalar (h : s.plainScalar = some u) :
    ∃ p, plain s.inFlow s.margin .empty false s.rest = some p
      ∧ Emits s (.scalar true (String.ofList p.text)) p.rest s.outerCandidates.length u := by
  obtain ⟨t, ht, h⟩ := Option.bind_eq_some_iff.mp h
  obtain ⟨candidate, rfl⟩ := exists_of_noteCandidate ht
  obtain ⟨p, hp, h⟩ := Option.bind_eq_some_iff.mp h
  cases h
  exact ⟨p, hp, rfl, rfl, rfl, rfl⟩

theorem inFlow_of_brackets (h : s.outerCandidates.length = k) : s.inFlow = decide (0 < k) := by
  subst h
  cases ho : s.outerCandidates <;> simp [inFlow, ho]

/-! ## Outside of all block collections -/

theorem closeBlocks_of_margin_eq_zero (h : s.margin = 0) (margin : Nat) :
    s.closeBlocks margin = s := by
  cases s
  obtain rfl := h
  simp [closeBlocks]

theorem dropCandidate_of_lenient (h : s.Lenient) :
    s.dropCandidate = some { s with candidate := none } := by
  unfold dropCandidate
  split
  · rename_i c hc
    simp [h c (.inl hc)]
  · rename_i hc
    rw [← hc]

/-- A node outside of all block collections need not be a key. -/
theorem exists_noteCandidate (hm : s.margin = 0) (hs : s.Lenient) :
    ∃ candidate, s.noteCandidate = some { s with candidate := candidate }
      ∧ Lenient { s with candidate := candidate } := by
  unfold noteCandidate
  split
  · refine ⟨some ⟨s.count, s.position, false⟩, ?_, ?_⟩
    · simp [dropCandidate_of_lenient hs, inFlow, hm]
    · rintro c (hc | hc)
      · cases hc
        rfl
      · exact hs c (.inr hc)
  · exact ⟨s.candidate, rfl, hs⟩

theorem finish_of_margin_eq_zero (hm : s.margin = 0) (hs : s.Lenient) :
    s.finish = some s.tokens.reverse := by
  simp [finish, endDocument, closeBlocks_of_margin_eq_zero hm, dropCandidate_of_lenient hs, bind]

end Stencil.Yaml.Lexer
