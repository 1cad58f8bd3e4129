import Stencil.Proofs.Yaml.BlockMapping
import Stencil.Proofs.Yaml.Written.Scalar

/-!
# Places in a written JSON document

The run of a lexer over one token of JSON at a time. Between two tokens nothing is known of a place but the
tokens so far, how many brackets are open, and the text that is left, up to white space (`Lexer.At`); that is
enough, since outside of all block collections no node has to be a key. A tab where a key could start, and a
string that cannot be read, end the run (`Lexer.Comes`).

Main statements: `Lexer.skipToToken_space`, `Lexer.At.comes_string` and `Lexer.At.comes_literal`.
-/

namespace Stencil.Yaml

open Stencil.Json (AllSpace Literal Quoted)

/-- Whether a tab stands in white space where a key could start, which is so behind the end of a line. -/
def meetsTab (keyAllowed : Bool) : List Char → Bool
  | [] => false
  | c :: cs => (c == '\t' && keyAllowed) || meetsTab (keyAllowed || isBreak c) cs

namespace Lexer

variable {s t u : Lexer} {cs more rest : List Char} {c : Char} {k : Nat} {ts : List Token} {key : Bool}

/-! ## Coming to a place -/

/-- Whether a run comes to a place of some kind if all is well, and to no end if not. -/
def Comes (s : Lexer) (ok : Bool) (P : Lexer → Prop) : Prop :=
  if ok then ∃ t, Reaches s t ∧ P t else ∀ ts, ¬ Ends s ts

theorem Comes.trans {a b : Bool} {P Q : Lexer → Prop} (h : Comes s a P) (hq : ∀ t, P t → Comes t b Q) :
    Comes s (a && b) Q := by
  cases a with
  | false => exact h
  | true =>
      obtain ⟨t, hreach, ht⟩ := h
      have hnext := hq t ht
      cases b with
      | false => exact fun ts hends => hnext ts (hreach.ends_iff.mp hends)
      | true =>
          obtain ⟨u, hreach', hu⟩ := hnext
          exact ⟨u, hreach.trans hreach', hu⟩

theorem Comes.mono {ok : Bool} {P Q : Lexer → Prop} (h : Comes s ok P) (hpq : ∀ t, P t → Q t) : Comes s ok Q := by
  cases ok with
  | false => exact h
  | true =>
      obtain ⟨t, hreach, ht⟩ := h
      exact ⟨t, hreach, hpq t ht⟩

/-- Whether a token is cut off in front of a place of some kind if all is well, and none if not. -/
def Cuts (s : Lexer) (c : Char) (cs : List Char) (ok : Bool) (P : Lexer → Prop) : Prop :=
  if ok then ∃ t, s.token c cs = some t ∧ P t else s.token c cs = none

theorem eq_of_ready? (h : s.ready? = some t) :
    t = { s.atToken with
      candidate := kept s.atToken.position s.candidate
      outerCandidates := s.outerCandidates.map (kept s.atToken.position) } := by
  rw [ready?, dropStale_eq] at h
  split at h
  · contradiction
  · exact (Option.some.inj h).symm

/-! ## Places between tokens -/

/-- A place outside of all block collections whose text goes on as some text does, with the tokens so far. -/
structure At (k : Nat) (cs : List Char) (ts : List Token) (s : Lexer) : Prop where
  rest : Json.skipSpace s.rest = Json.skipSpace cs
  brackets : s.outerCandidates.length = k
  margin : s.margin = 0
  lenient : s.Lenient
  tokens : s.tokens = ts
  count : s.count = s.tokens.length

theorem At.of_skipSpace {cs' : List Char} (h : At k cs ts s) (he : Json.skipSpace cs = Json.skipSpace cs') :
    At k cs' ts s := { h with rest := h.rest.trans he }

theorem At.inFlow (h : At (k + 1) cs ts s) : s.inFlow = true := by
  rw [inFlow_of_brackets h.brackets]
  exact decide_eq_true (Nat.zero_lt_succ k)

/-- One token. -/
theorem At.comes {ok : Bool} {P : Lexer → Prop} (h : At k cs ts s) (hs : s.skipped = (c :: more, key))
    (hp : ∀ t, s.ready? = some t → At k (c :: more) ts t → t.rest = c :: more → t.keyAllowed = key →
      Cuts t c more ok P) : Comes s ok P := by
  obtain ⟨t, ht, hr⟩ := exists_ready h.lenient
  have hrest : t.rest = c :: more := by rw [hr.rest, hs]
  have hat : At k (c :: more) ts t := by
    refine ⟨by rw [hrest], hr.brackets.trans h.brackets, hr.margin.trans h.margin, hr.lenient h.lenient,
      hr.tokens.trans h.tokens, ?_⟩
    rw [eq_of_ready? ht]
    exact h.count
  have hcuts := hp t ht hat hrest (by rw [hr.keyAllowed, hs])
  have hblocks : t.closeBlocks (t.position.column + 1) = t := closeBlocks_of_margin_eq_zero hat.margin _
  cases ok with
  | true =>
      obtain ⟨u, hu, hpu⟩ := hcuts
      exact ⟨u, .single ⟨t, c, more, ht, hrest, by rw [hblocks, hu]⟩, hpu⟩
  | false =>
      rintro ts ⟨n, hn⟩
      cases n with
      | zero => cases hn
      | succ n =>
          have hnone : t.token c more = none := hcuts
          rw [run_succ, ht, Option.bind_some] at hn
          simp only [hrest, hblocks, hnone] at hn
          contradiction

/-! ## White space -/

theorem IsSolid.isSpace (h : IsSolid c) : Json.isSpace c = false := by
  cases hs : Json.isSpace c with
  | false => rfl
  | true =>
      simp only [Json.isSpace, Bool.or_eq_true, beq_iff_eq] at hs
      have hgap := h.gap
      rcases hs with ((rfl | rfl) | rfl) | rfl <;> contradiction

/-- A carriage return leaves the line end to the newline behind it. -/
theorem meetsTab_of_returns {w : List Char} (hr : returnsBeforeNewline '\r' (w ++ cs) = true)
    (hcs : cs.head? ≠ some '\n') (key : Bool) : meetsTab key w = meetsTab true w := by
  have hhead : (w ++ cs).head? = some '\n' := by simpa [returnsBeforeNewline] using hr
  cases w with
  | nil => exact absurd hhead hcs
  | cons d w =>
      obtain rfl : d = '\n' := Option.some.inj hhead
      simp [meetsTab, isBreak]

/-- One character of white space is passed over, unless it is a tab where a key could start. -/
theorem skipToToken_cons_space {w : List Char} (hc : Json.isSpace c = true) (hcs : cs.head? ≠ some '\n')
    {key flow : Bool} (hp : flow = true ∨ c ≠ '\t' ∨ key = false) (column : Nat) :
    ∃ key' column', skipToToken key flow column false (c :: (w ++ cs)) = skipToToken key' flow column' false (w ++ cs)
      ∧ (flow = true → key' = key) ∧ (flow = false → meetsTab key (c :: w) = meetsTab key' w) := by
  have hline : isBreak c = true → c ≠ '\t' → (flow = true → (key || !flow) = key)
      ∧ (flow = false → meetsTab key (c :: w) = meetsTab (key || !flow) w) := by
    intro hbreak hne
    exact ⟨by rintro rfl; simp, by rintro rfl; simp [meetsTab, hbreak, hne]⟩
  simp only [Json.isSpace, Bool.or_eq_true, beq_iff_eq] at hc
  rcases hc with ((rfl | rfl) | rfl) | rfl
  · exact ⟨key, column + 1, rfl, fun _ => rfl, fun _ => by simp [meetsTab, isBreak]⟩
  · have hpass : (flow || !key) = true := by simpa using hp
    refine ⟨key, column + 1, by simp [skipToToken, isBreak, hpass], fun _ => rfl, ?_⟩
    rintro rfl
    obtain rfl : key = false := by simpa using hpass
    simp [meetsTab, isBreak]
  · exact ⟨key || !flow, 0, rfl, hline rfl (by decide)⟩
  · by_cases hr : returnsBeforeNewline '\r' (w ++ cs) = true
    · refine ⟨key, column, by simp [skipToToken, isBreak, hr], fun _ => rfl, fun _ => ?_⟩
      rw [meetsTab_of_returns hr hcs key]
      simp [meetsTab, isBreak]
    · exact ⟨key || !flow, 0, by simp [skipToToken, isBreak, hr], hline rfl (by decide)⟩

/-- **White space in front of a token is passed over**, up to a tab where a key could start. -/
theorem skipToToken_space {w : List Char} (hw : AllSpace w) (hcs : ∀ c more, cs = c :: more → IsSolid c)
    (key flow : Bool) (column : Nat) :
    if !flow && meetsTab key w then
      ∃ more key', skipToToken key flow column false (w ++ cs) = ('\t' :: more, key')
    else
      ∃ key', skipToToken key flow column false (w ++ cs) = (cs, key') ∧ (flow = true → key' = key) := by
  have hhead : cs.head? ≠ some '\n' := by
    intro hh
    obtain ⟨more, rfl⟩ := List.head?_eq_some_iff.mp hh
    exact absurd (hcs _ _ rfl).gap (by decide)
  induction w generalizing key column with
  | nil =>
      have hend : skipToToken key flow column false cs = (cs, key) := by
        cases cs with
        | nil => rfl
        | cons c cs => exact skipToToken_of_solid (hcs c cs rfl) key flow column cs
      simp only [meetsTab, Bool.and_false, Bool.false_eq_true, if_false]
      exact ⟨key, hend, fun _ => rfl⟩
  | cons c w ih =>
      obtain ⟨hc, hw⟩ := List.forall_mem_cons.mp hw
      -- A tab is skipped inside brackets, or where no key may start. The reader stops at any other.
      by_cases hp : flow = true ∨ c ≠ '\t' ∨ key = false
      · obtain ⟨key', column', hstep, hkey, htab⟩ := skipToToken_cons_space hc hhead hp column
        have hmore := ih hw key' column'
        rw [List.cons_append, hstep]
        cases flow with
        | false =>
            rw [htab rfl]
            simpa using hmore
        | true =>
            rw [hkey rfl] at hmore ⊢
            exact hmore
      · obtain ⟨rfl, rfl, rfl⟩ : flow = false ∧ c = '\t' ∧ key = true := by simpa using hp
        exact ⟨w ++ cs, true, by simp [skipToToken, isBreak]⟩

/-- Between brackets white space is passed over. -/
theorem At.skipped (h : At (k + 1) cs ts s) (hs : Json.skipSpace cs = c :: more) (hc : IsSolid c) :
    s.skipped = (c :: more, s.keyAllowed) := by
  obtain ⟨w, hw, he⟩ := Json.exists_append_skipSpace s.rest
  rw [h.rest, hs] at he
  have hsolid : ∀ d more', c :: more = d :: more' → IsSolid d := by
    rintro d more' ⟨⟩
    exact hc
  have hskip := skipToToken_space hw hsolid s.keyAllowed s.inFlow s.position.column
  rw [← he, h.inFlow] at hskip
  obtain ⟨key, hkey, hsame⟩ := hskip
  rw [Lexer.skipped, h.inFlow, hkey, hsame rfl]

/-! ## Marks -/

/-- A place where a key may start. -/
structure AtKey (k : Nat) (cs : List Char) (ts : List Token) (s : Lexer) : Prop extends At k cs ts s where
  keyAllowed : s.keyAllowed = true

/-- The place behind a closing bracket, where no key may start. -/
structure BehindBracket (k : Nat) (cs : List Char) (ts : List Token) (s : Lexer) : Prop extends At k cs ts s where
  exact_rest : s.rest = cs
  keyAllowed : s.keyAllowed = false

theorem At.openFlow (h : At k cs ts s) (tok : Token) (more : List Char) :
    ∃ u, s.openFlow tok more = some u ∧ AtKey (k + 1) more (tok :: ts) u := by
  obtain ⟨candidate, hn, hl⟩ := exists_noteCandidate h.margin h.lenient
  refine ⟨{ (s.moveTo more).emit tok with
      candidate := none
      outerCandidates := candidate :: s.outerCandidates
      keyAllowed := true }, ?_, ⟨rfl, ?_, h.margin, ?_, ?_, ?_⟩, rfl⟩
  · rw [Lexer.openFlow, hn]
    rfl
  · exact congrArg (· + 1) h.brackets
  · rintro d (hd | hd)
    · cases hd
    · rcases List.mem_cons.mp hd with hd | hd
      · exact hl d (.inl hd.symm)
      · exact hl d (.inr hd)
  · exact congrArg (tok :: ·) h.tokens
  · exact congrArg (· + 1) h.count

theorem At.closeFlow (h : At (k + 1) cs ts s) (tok : Token) (more : List Char) :
    ∃ u, s.closeFlow tok more = some u ∧ BehindBracket k more (tok :: ts) u := by
  cases ho : s.outerCandidates with
  | nil =>
      have hk := h.brackets
      simp [ho] at hk
  | cons candidate outer =>
      refine ⟨{ (s.moveTo more).emit tok with
          candidate := candidate
          outerCandidates := outer
          keyAllowed := false }, ?_, ⟨rfl, ?_, h.margin, ?_, ?_, ?_⟩, rfl, rfl⟩
      · rw [closeFlow_eq, dropCandidate_of_lenient h.lenient, Option.bind_some, closeBracket]
        simp only [ho]
        rfl
      · have hk := h.brackets
        simpa [ho] using hk
      · rintro d (hd | hd)
        · exact h.lenient d (.inr (by rw [ho, ← hd]; exact List.mem_cons_self))
        · exact h.lenient d (.inr (by rw [ho]; exact List.mem_cons_of_mem _ hd))
      · exact congrArg (tok :: ·) h.tokens
      · exact congrArg (· + 1) h.count

theorem At.flowEntry (h : At k cs ts s) (more : List Char) :
    ∃ u, s.flowEntry more = some u ∧ AtKey k more (.flowEntry :: ts) u := by
  refine ⟨{ (s.moveTo more).emit .flowEntry with candidate := none, keyAllowed := true }, ?_,
    ⟨rfl, h.brackets, h.margin, ?_, ?_, ?_⟩, rfl⟩
  · rw [Lexer.flowEntry, dropCandidate_of_lenient h.lenient]
    rfl
  · rintro d (hd | hd)
    · cases hd
    · exact h.lenient d (.inr hd)
  · exact congrArg (.flowEntry :: ·) h.tokens
  · exact congrArg (· + 1) h.count

/-- One mark between brackets. -/
theorem At.comes_mark {P : Lexer → Prop} (h : At (k + 1) cs ts s) (hs : Json.skipSpace cs = c :: more)
    (hc : IsSolid c) (hp : ∀ t, At (k + 1) (c :: more) ts t → ∃ u, t.token c more = some u ∧ P u) :
    Comes s true P :=
  h.comes (h.skipped hs hc) fun t _ ht _ _ => hp t ht

def openings : List (Char × Token) := [('[', .flowSequence), ('\x7b', .flowMapping)]

def closings : List (Char × Token) := [(']', .flowSequenceEnd), ('\x7d', .flowMappingEnd)]

theorem token_of_mem_openings {tok : Token} (h : (c, tok) ∈ openings) (s : Lexer) (more : List Char) :
    IsSolid c ∧ s.token c more = s.openFlow tok more := by
  simp only [openings, List.mem_cons, List.not_mem_nil, or_false, Prod.mk.injEq] at h
  rcases h with ⟨rfl, rfl⟩ | ⟨rfl, rfl⟩ <;>
    exact ⟨⟨by decide, by decide, by decide⟩, by simp [token, startsDocumentMark]⟩

theorem token_of_mem_closings {tok : Token} (h : (c, tok) ∈ closings) (s : Lexer) (more : List Char) :
    IsSolid c ∧ s.token c more = s.closeFlow tok more := by
  simp only [closings, List.mem_cons, List.not_mem_nil, or_false, Prod.mk.injEq] at h
  rcases h with ⟨rfl, rfl⟩ | ⟨rfl, rfl⟩ <;>
    exact ⟨⟨by decide, by decide, by decide⟩, by simp [token, startsDocumentMark]⟩

theorem At.comes_open (h : At (k + 1) cs ts s) (c : Char) (tok : Token) (ht : (c, tok) ∈ openings)
    (hs : Json.skipSpace cs = c :: more) : Comes s true (AtKey (k + 1 + 1) more (tok :: ts)) := by
  refine h.comes_mark hs (token_of_mem_openings ht s more).1 fun t hat => ?_
  obtain ⟨u, hu, hopened⟩ := hat.openFlow tok more
  exact ⟨u, (token_of_mem_openings ht t more).2.trans hu, hopened⟩

theorem At.comes_close (h : At (k + 1) cs ts s) (c : Char) (tok : Token) (ht : (c, tok) ∈ closings)
    (hs : Json.skipSpace cs = c :: more) : Comes s true (BehindBracket k more (tok :: ts)) := by
  refine h.comes_mark hs (token_of_mem_closings ht s more).1 fun t hat => ?_
  obtain ⟨u, hu, hclosed⟩ := hat.closeFlow tok more
  exact ⟨u, (token_of_mem_closings ht t more).2.trans hu, hclosed⟩

theorem At.comes_comma (h : At (k + 1) cs ts s) (hs : Json.skipSpace cs = ',' :: more) :
    Comes s true (AtKey (k + 1) more (.flowEntry :: ts)) := by
  refine h.comes_mark hs ⟨by decide, by decide, by decide⟩ fun t hat => ?_
  obtain ⟨u, hu, hentry⟩ := hat.flowEntry more
  exact ⟨u, by simpa [token, startsDocumentMark] using hu, hentry⟩

/-! ## Scalars -/

theorem At.cut (h : At k cs ts s) (tok : Token) (key : Bool) (rest : List Char) :
    At k rest (tok :: ts) (s.cut tok key rest) :=
  ⟨rfl, h.brackets, h.margin, h.lenient, congrArg (tok :: ·) h.tokens, congrArg (· + 1) h.count⟩

theorem At.noteCandidate (h : At k cs ts s) :
    ∃ u, s.noteCandidate = some u ∧ At k cs ts u ∧ u.rest = s.rest := by
  obtain ⟨candidate, hn, hl⟩ := exists_noteCandidate h.margin h.lenient
  exact ⟨_, hn, ⟨h.rest, h.brackets, h.margin, hl, h.tokens, h.count⟩, rfl⟩

/-- A string is cut off if it can be read. -/
theorem At.cuts_string {q : Quoted} (h : At k cs ts s) (rest : List Char) {P : Lexer → Prop}
    (hp : ∀ t, s.noteCandidate = some t → At k cs ts t →
      P (t.cut (.scalar false (String.ofList (folded .empty q))) false rest)) :
    Cuts s '"' (q.body ++ '"' :: rest) (isReadable q) P := by
  obtain ⟨u, hu, hat, -⟩ := h.noteCandidate
  have htoken : s.token '"' (q.body ++ '"' :: rest)
      = ((doubleQuoted (.text .empty) (q.body ++ '"' :: rest)).map fun p =>
          (Token.scalar false (String.ofList p.1), p.2)).map fun p => u.cut p.1 false p.2 := by
    simp [token, startsDocumentMark, node_eq, hu]
  rw [doubleQuoted_body, meetsDocumentMark_empty, Bool.or_false] at htoken
  have hlegible : isReadable q = !(q.any isPair || meetsMark q) := rfl
  rw [Cuts, hlegible, htoken]
  cases q.any isPair || meetsMark q with
  | true => rfl
  | false => exact ⟨_, rfl, hp u hu hat⟩

theorem At.comes_string {q : Quoted} (h : At (k + 1) cs ts s)
    (hs : Json.skipSpace cs = '"' :: (q.body ++ '"' :: rest)) :
    Comes s (isReadable q) (At (k + 1) rest (.scalar false (String.ofList (folded .empty q)) :: ts)) :=
  h.comes (h.skipped hs ⟨by decide, by decide, by decide⟩) fun _ _ ht _ _ =>
    ht.cuts_string rest fun _ _ hu => hu.cut _ _ _

theorem At.comes_literal {w : Literal} (h : At (k + 1) (w.chars ++ rest) ts s) (hf : Followed rest) :
    Comes s true (At (k + 1) rest (.scalar true (String.ofList w.chars) :: ts)) := by
  obtain ⟨c, more, hchars, -⟩ := w.bare.head
  have hsplit : w.chars ++ rest = c :: (more ++ rest) := by rw [hchars, List.cons_append]
  have hbare : Json.isBareChar c = true := w.bare.char c (hchars ▸ List.mem_cons_self)
  have hs : Json.skipSpace (w.chars ++ rest) = c :: (more ++ rest) := by
    rw [hsplit, Json.skipSpace_of_not_isSpace (Json.isSpace_of_isBareChar hbare)]
  refine h.comes (h.skipped hs (isSolid_of_isBareChar hbare)) fun t _ ht hrest _ => ?_
  obtain ⟨broken, hplain⟩ := plain_literal w hf
  obtain ⟨u, hu, hat, hrest'⟩ := ht.noteCandidate
  have hp : plain u.inFlow u.margin .empty false u.rest = some ⟨w.chars, Json.skipSpace rest, broken⟩ := by
    rw [hat.inFlow, hat.margin, hrest', hrest, ← hsplit, hplain]
  refine ⟨_, ?_, (hat.cut _ broken _).of_skipSpace (Json.skipSpace_skipSpace rest)⟩
  rw [token_of_bare w.bare hsplit, plainScalar_eq, hu, Option.bind_some, hp]
  rfl

end Lexer

end Stencil.Yaml
