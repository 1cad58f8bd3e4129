import Stencil.Proofs.Yaml.Written.Place

/-!
# Tokens of a written JSON document

The run of a lexer over an object that is written in JSON. It comes to the end of the text if no tab stands where a
key could start and every string can be read, and then the tokens are those of the object; but a name that is too
far from its colon is not taken for a key.

Main statement: `tokens?_document`.
-/

namespace Stencil.Yaml

open Stencil.Json (AllSpace Document Label Piece Quoted Written WrittenItems WrittenMembers)

/-! ## The tokens that are expected -/

/-- Whether a name is taken for a key: its colon is on the same line, and within a thousand and twenty-four
bytes. -/
def isNear (l : Label) : Bool := l.key.all (!isBreak ·) && bytes l.key ≤ 1024

/-- The tokens of a name with its colon. -/
def tokensOfLabel (l : Label) : List Token :=
  if isNear l then [.key, .scalar false (String.ofList l.name.says), .value]
  else [.scalar false (String.ofList (folded .empty l.name)), .value]

mutual

def tokensOf : Written → List Token
  | .literal w => [.scalar true (String.ofList w.chars)]
  | .string q => [.scalar false (String.ofList (folded .empty q))]
  | .emptyArray _ => [.flowSequence, .flowSequenceEnd]
  | .array items => .flowSequence :: tokensOfItems items
  | .emptyObject _ => [.flowMapping, .flowMappingEnd]
  | .object members => .flowMapping :: tokensOfMembers members

/-- The tokens of items, with the closing bracket. -/
def tokensOfItems : WrittenItems → List Token
  | .last _ v _ => tokensOf v ++ [.flowSequenceEnd]
  | .more _ v _ items => tokensOf v ++ .flowEntry :: tokensOfItems items

/-- The tokens of members, with the closing brace. -/
def tokensOfMembers : WrittenMembers → List Token
  | .last label _ v _ => tokensOfLabel label ++ (tokensOf v ++ [.flowMappingEnd])
  | .more label _ v _ members => tokensOfLabel label ++ (tokensOf v ++ .flowEntry :: tokensOfMembers members)

end

/-- Whether a piece can be cut off: a string has to be one that YAML can read. -/
def isLegible : Piece → Bool
  | .string q => isReadable q
  | _ => true

/-! ## Names and their colons -/

/-- The end of a line moves a position to a later line. -/
theorem Position.line_lt_advance {a b : List Char} (h : ∃ c ∈ a, isBreak c = true) (hb : b.head? ≠ some '\n')
    (p : Position) : p.line < (p.advance a.length (a ++ b)).line := by
  induction a generalizing p with
  | nil =>
      obtain ⟨c, hc, -⟩ := h
      contradiction
  | cons c a ih =>
      have hle : p.line ≤ (p.next c (a ++ b)).line := Position.line_le_advance 1 p (c :: (a ++ b))
      by_cases ha : ∃ d ∈ a, isBreak d = true
      · exact Nat.lt_of_le_of_lt hle (ih ha (p.next c (a ++ b)))
      · have hc : isBreak c = true := by
          obtain ⟨d, hd, hbreak⟩ := h
          rcases List.mem_cons.mp hd with rfl | hd
          · exact hbreak
          · exact absurd ⟨d, hd, hbreak⟩ ha
        have hreturn : returnsBeforeNewline c (a ++ b) = false := by
          have hhead : (a ++ b).head? ≠ some '\n' := by
            cases a with
            | nil => exact hb
            | cons d a =>
                rintro ⟨⟩
                exact ha ⟨'\n', List.mem_cons_self, by decide⟩
          exact Bool.and_eq_false_iff.mpr (.inr (beq_eq_false_iff_ne.mpr hhead))
        have hnext : (p.next c (a ++ b)).line = p.line + 1 := by simp [Position.next, hc, hreturn]
        have hmore := Position.line_le_advance a.length (p.next c (a ++ b)) (a ++ b)
        rw [hnext] at hmore
        exact hmore

/-- **A name can no longer be a key at its colon if that is too far from it.** -/
theorem isStale_key (l : Label) (p : Position) (n : Nat) (more : List Char) :
    Lexer.isStale (p.advance l.key.length (l.key ++ ':' :: more)) ⟨n, p, false⟩ = !isNear l := by
  by_cases hline : ∀ c ∈ l.key, isBreak c = false
  · have hall : l.key.all (!isBreak ·) = true := by simpa using hline
    have hbytes : decide (1024 < bytes l.key) = !decide (bytes l.key ≤ 1024) := by
      rw [← decide_not, decide_eq_decide]
      omega
    rw [Position.advance_of_line hline]
    simp [Lexer.isStale, isNear, hall, hbytes]
  · have hbreak : ∃ c ∈ l.key, isBreak c = true := by simpa using hline
    have hlt := Position.line_lt_advance hbreak (b := ':' :: more) (by simp) p
    have hall : l.key.all (!isBreak ·) = false := by simpa using hbreak
    simp [Lexer.isStale, isNear, hall, hlt]

namespace Lexer

variable {s t : Lexer} {cs more : List Char} {c : Char} {k : Nat} {ts : List Token}

/-! ## Names -/

theorem folded_of_isNear {l : Label} (h : isNear l = true) : folded .empty l.name = l.name.says := by
  have hkey : ∀ c ∈ l.key, isBreak c = false := by
    simp only [isNear, Bool.and_eq_true, List.all_eq_true, Bool.not_eq_true'] at h
    exact h.1
  exact folded_of_line (fun c hc => hkey c (by simp [Label.key, Quoted.text, hc])) []

/-- The place behind a name, in front of the white space before its colon. -/
structure BehindName (k : Nat) (l : Label) (more : List Char) (ts : List Token) (s : Lexer) : Prop where
  place : At (k + 1) (':' :: more) (.scalar false (String.ofList (folded .empty l.name)) :: ts) s
  rest : s.rest = l.gap.1 ++ ':' :: more
  candidate : ∃ p, s.candidate = some ⟨ts.length, p, false⟩
    ∧ s.position = p.advance l.name.text.length (l.key ++ ':' :: more)

/-- At its colon a name is still a possible key if it is near. -/
theorem BehindName.candidate_of_ready? {l : Label} (h : BehindName k l more ts s) (ht : s.ready? = some t) :
    ∃ p, t.candidate = if isNear l then some ⟨ts.length, p, false⟩ else none := by
  obtain ⟨p, hc, hp⟩ := h.candidate
  have hskipped : s.skipped.1 = ':' :: more :=
    congrArg Prod.fst (h.place.skipped rfl ⟨by decide, by decide, by decide⟩)
  have hposition : s.atToken.position = p.advance l.key.length (l.key ++ ':' :: more) := by
    have hlead := Position.advance_lead l.name.text (l.gap.1 ++ ':' :: more) l.gap.1.length p
    have hmove := moveTo_append h.rest
    rw [atToken_eq, hskipped, hmove, hp]
    simpa [Label.key] using hlead.symm
  refine ⟨p, ?_⟩
  rw [eq_of_ready? ht]
  simp only [hposition, hc, kept, Option.any_some, isStale_key]
  cases isNear l <;> rfl

theorem BehindName.comes_colon {l : Label} (h : BehindName k l more ts s) :
    Comes s true (At (k + 1) more ((tokensOfLabel l).reverse ++ ts)) := by
  have hskipped := h.place.skipped rfl ⟨by decide, by decide, by decide⟩
  refine h.place.comes hskipped fun t ht hat _ _ => ?_
  obtain ⟨p, hc⟩ := h.candidate_of_ready? ht
  have htoken : t.token ':' more = t.valueMark more := by simp [token, startsDocumentMark, hat.inFlow]
  rw [Cuts, if_pos rfl, htoken]
  cases hn : isNear l with
  | true =>
      rw [hn, if_pos rfl] at hc
      have hopen : t.openKey ⟨ts.length, p, false⟩ = t.markKey ⟨ts.length, p, false⟩ := by
        have hflow : (t.markKey ⟨ts.length, p, false⟩).inFlow = true := hat.inFlow
        simp [openKey, opensBlock, hflow]
      refine ⟨_, valueMark_of_candidate hc more, ?_⟩
      rw [hopen]
      refine ⟨rfl, hat.brackets, hat.margin, ?_, ?_, ?_⟩
      · rintro d (hd | hd)
        · cases hd
        · exact hat.lenient d (.inr hd)
      · have hbefore : t.count - ts.length = 1 := by
          rw [hat.count, hat.tokens, List.length_cons]
          omega
        simp [moveTo, emit, markKey, emitAt, hbefore, hat.tokens, tokensOfLabel, hn, folded_of_isNear hn]
      · have hlength : t.count = ts.length + 1 := by rw [hat.count, hat.tokens, List.length_cons]
        simp [moveTo, emit, markKey, emitAt, hlength, hat.tokens]
  | false =>
      rw [hn] at hc
      refine ⟨{ (t.moveTo more).emit .value with keyAllowed := false }, ?_,
        ⟨rfl, hat.brackets, hat.margin, hat.lenient, ?_, congrArg (· + 1) hat.count⟩⟩
      · simp [valueMark, hc, hat.inFlow, openBlock, opensBlock]
      · show .value :: t.tokens = _
        rw [hat.tokens]
        simp [tokensOfLabel, hn]

/-- **A name is cut off with its colon** if it can be read. -/
theorem AtKey.comes_label {l : Label} (h : AtKey (k + 1) (l.text ++ more) ts s) :
    Comes s (isReadable l.name) (At (k + 1) more ((tokensOfLabel l).reverse ++ ts)) := by
  have hs : Json.skipSpace (l.text ++ more) = '"' :: (l.name.body ++ '"' :: (l.gap.1 ++ ':' :: more)) := by
    simp [Label.text, Label.key, Quoted.text, Json.skipSpace_append l.lead.2, Json.skipSpace_cons, Json.isSpace]
  have hfirst : Comes s (isReadable l.name) (BehindName k l more ts) := by
    refine h.toAt.comes (h.toAt.skipped hs ⟨by decide, by decide, by decide⟩) fun t _ ht hrest hk => ?_
    refine ht.cuts_string _ fun u hu hat => ?_
    have hnote : t.noteCandidate = some { t with candidate := some ⟨t.count, t.position, false⟩ } := by
      rw [Lexer.noteCandidate, if_pos (hk.trans h.keyAllowed), dropCandidate_of_lenient ht.lenient]
      have hflow : inFlow { t with candidate := none } = true := ht.inFlow
      simp [hflow, bind]
    obtain rfl := Option.some.inj (hu.symm.trans hnote)
    refine ⟨(hat.cut _ _ _).of_skipSpace (Json.skipSpace_append l.gap.2 _), rfl, t.position, ?_, ?_⟩
    · show some (Candidate.mk t.count t.position false) = _
      rw [ht.count, ht.tokens]
    · have hsplit : t.rest = l.name.text ++ (l.gap.1 ++ ':' :: more) := by
        rw [hrest]
        simp [Quoted.text]
      show (t.moveTo (l.gap.1 ++ ':' :: more)).position = _
      rw [moveTo_append hsplit]
      simp [Label.key]
  rw [← Bool.and_true (isReadable _)]
  exact hfirst.trans fun t ht => ht.comes_colon

/-! ## Values -/

theorem followed_of_mark {w : List Char} (hw : AllSpace w) (hc : isFlowIndicator c = true) (cs : List Char) :
    Followed (w ++ c :: cs) := by
  have hspace : Json.isSpace c = false := by
    simp only [isFlowIndicator, Bool.or_eq_true, beq_iff_eq] at hc
    rcases hc with (((rfl | rfl) | rfl) | rfl) | rfl <;> rfl
  exact ⟨c, cs, by rw [Json.skipSpace_append hw, Json.skipSpace_of_not_isSpace hspace], hc⟩

/-- Brackets with nothing but white space between them. -/
theorem comes_empty (c d : Char) (a b : Token) (ho : (c, a) ∈ openings) (hc : (d, b) ∈ closings)
    (space : Json.Space) (h : At (k + 1) (c :: (space.1 ++ d :: more)) ts s) :
    Comes s true (At (k + 1) more (b :: a :: ts)) := by
  have hopening : Json.isSpace c = false := (token_of_mem_openings ho s more).1.isSpace
  have hclosing : Json.isSpace d = false := (token_of_mem_closings hc s more).1.isSpace
  have hopen := h.comes_open c a ho (Json.skipSpace_of_not_isSpace hopening _)
  have hclose := hopen.trans fun t ht => ht.toAt.comes_close d b hc
    (by rw [Json.skipSpace_append space.2, Json.skipSpace_of_not_isSpace hclosing])
  exact hclose.mono fun t ht => ht.toAt

mutual

/-- **A value between brackets is cut into its tokens** if its strings can be read. -/
theorem comes_value : ∀ (v : Written) {k : Nat} {ts : List Token} {rest : List Char} {s : Lexer}, Followed rest →
    At (k + 1) (v.text ++ rest) ts s →
    Comes s (v.pieces.all isLegible) (At (k + 1) rest ((tokensOf v).reverse ++ ts))
  | .literal w, k, ts, rest, s, hf, h => by
      simpa [Written.pieces, tokensOf, isLegible] using h.comes_literal hf
  | .string q, k, ts, rest, s, hf, h => by
      have hs : Json.skipSpace (q.text ++ rest) = '"' :: (q.body ++ '"' :: rest) := by
        simp [Quoted.text, Json.skipSpace_cons, Json.isSpace]
      simpa [Written.pieces, tokensOf, isLegible] using h.comes_string hs
  | .emptyArray space, k, ts, rest, s, hf, h => by
      have hall := comes_empty '[' ']' .flowSequence .flowSequenceEnd (by simp [openings]) (by simp [closings]) space
        (by simpa [Written.text] using h)
      simpa [Written.pieces, tokensOf] using hall
  | .array items, k, ts, rest, s, hf, h => by
      have hopen := h.comes_open '[' .flowSequence (by simp [openings]) rfl
      have hall := (hopen.trans fun t ht => comes_items items ht.toAt).mono fun t ht => ht.toAt
      simpa [Written.pieces, tokensOf] using hall
  | .emptyObject space, k, ts, rest, s, hf, h => by
      have hall := comes_empty '\x7b' '\x7d' .flowMapping .flowMappingEnd (by simp [openings]) (by simp [closings])
        space (by simpa [Written.text] using h)
      simpa [Written.pieces, tokensOf] using hall
  | .object members, k, ts, rest, s, hf, h => by
      have hopen := h.comes_open '\x7b' .flowMapping (by simp [openings]) rfl
      have hall := (hopen.trans fun t ht => comes_members members ht).mono fun t ht => ht.toAt
      simpa [Written.pieces, tokensOf, isLegible] using hall

theorem comes_items : ∀ (items : WrittenItems) {k : Nat} {ts : List Token} {rest : List Char} {s : Lexer},
    At (k + 1) (items.text ++ rest) ts s →
    Comes s (items.pieces.all isLegible) (BehindBracket k rest ((tokensOfItems items).reverse ++ ts))
  | .last lead v behind, k, ts, rest, s, h => by
      have hv : At (k + 1) (v.text ++ (behind.1 ++ ']' :: rest)) ts s :=
        h.of_skipSpace (by simp [WrittenItems.text, Json.skipSpace_append lead.2])
      have hvalue := comes_value v (followed_of_mark behind.2 rfl rest) hv
      have hall := hvalue.trans fun t ht =>
        ht.comes_close ']' .flowSequenceEnd (by simp [closings]) (Json.skipSpace_append behind.2 _)
      simpa [WrittenItems.pieces, tokensOfItems] using hall
  | .more lead v behind items, k, ts, rest, s, h => by
      have hv : At (k + 1) (v.text ++ (behind.1 ++ ',' :: (items.text ++ rest))) ts s :=
        h.of_skipSpace (by simp [WrittenItems.text, Json.skipSpace_append lead.2])
      have hvalue := comes_value v (followed_of_mark behind.2 rfl _) hv
      have hcomma := hvalue.trans fun t ht => ht.comes_comma (Json.skipSpace_append behind.2 _)
      have hall := hcomma.trans fun t ht => comes_items items ht.toAt
      simpa [WrittenItems.pieces, tokensOfItems] using hall

theorem comes_members : ∀ (members : WrittenMembers) {k : Nat} {ts : List Token} {rest : List Char} {s : Lexer},
    AtKey (k + 1) (members.text ++ rest) ts s →
    Comes s (members.pieces.all isLegible) (BehindBracket k rest ((tokensOfMembers members).reverse ++ ts))
  | .last label lead v behind, k, ts, rest, s, h => by
      have hl : AtKey (k + 1) (label.text ++ (lead.1 ++ (v.text ++ (behind.1 ++ '\x7d' :: rest)))) ts s := by
        simpa [WrittenMembers.text] using h
      have hlabel := hl.comes_label
      have hvalue := hlabel.trans fun t ht =>
        comes_value v (followed_of_mark behind.2 rfl rest) (ht.of_skipSpace (Json.skipSpace_append lead.2 _))
      have hall := hvalue.trans fun t ht =>
        ht.comes_close '\x7d' .flowMappingEnd (by simp [closings]) (Json.skipSpace_append behind.2 _)
      simpa [WrittenMembers.pieces, tokensOfMembers, isLegible] using hall
  | .more label lead v behind members, k, ts, rest, s, h => by
      have hl : AtKey (k + 1)
          (label.text ++ (lead.1 ++ (v.text ++ (behind.1 ++ ',' :: (members.text ++ rest))))) ts s := by
        simpa [WrittenMembers.text] using h
      have hlabel := hl.comes_label
      have hvalue := hlabel.trans fun t ht =>
        comes_value v (followed_of_mark behind.2 rfl _) (ht.of_skipSpace (Json.skipSpace_append lead.2 _))
      have hcomma := hvalue.trans fun t ht => ht.comes_comma (Json.skipSpace_append behind.2 _)
      have hall := hcomma.trans fun t ht => comes_members members ht
      simpa [WrittenMembers.pieces, tokensOfMembers, isLegible, Bool.and_assoc] using hall

end

/-! ## Documents -/

/-- The brace that opens a document is found if no tab stands in front of it. -/
theorem comes_brace (d : Document) :
    Comes (start d.text) (!meetsTab true d.lead.1)
      (AtKey 1 (d.members.text ++ d.trail.1) [.flowMapping]) := by
  have hat : At 0 d.text [] (start d.text) :=
    ⟨rfl, rfl, rfl, lenient_start d.text, rfl, rfl⟩
  have hsolid : ∀ c more, '\x7b' :: (d.members.text ++ d.trail.1) = c :: more → IsSolid c := by
    rintro c more ⟨⟩
    exact ⟨by decide, by decide, by decide⟩
  have hskip := skipToToken_space d.lead.2 hsolid true false 0
  cases hl : meetsTab true d.lead.1 with
  | true =>
      rw [hl] at hskip
      obtain ⟨more, key, hskip⟩ := hskip
      exact hat.comes hskip fun t _ _ _ _ => token_tab t more
  | false =>
      rw [hl] at hskip
      obtain ⟨key, hskip, -⟩ := hskip
      refine hat.comes hskip fun t _ ht _ _ => ?_
      obtain ⟨u, hu, hopened⟩ := ht.openFlow .flowMapping (d.members.text ++ d.trail.1)
      exact ⟨u, by simpa [token, startsDocumentMark] using hu, hopened⟩

/-- Behind the last bracket the text ends if no tab stands where a key could start. -/
theorem BehindBracket.ends_iff {out : List Token} (h : BehindBracket 0 cs ts s) (hw : AllSpace cs) :
    Ends s out ↔ meetsTab false cs = false ∧ out = ts.reverse := by
  have hflow : s.inFlow = false := inFlow_of_brackets h.brackets
  have hnil : ∀ c more, ([] : List Char) = c :: more → IsSolid c := by simp
  have hskip := skipToToken_space hw hnil false false s.position.column
  have hskipped : s.skipped = skipToToken false false s.position.column false (cs ++ []) := by
    rw [skipped, h.keyAllowed, hflow, h.exact_rest, List.append_nil]
  cases ht : meetsTab false cs with
  | true =>
      rw [ht] at hskip
      obtain ⟨more, key, hskip⟩ := hskip
      have hnone : Comes s false fun _ => False :=
        h.toAt.comes (hskipped.trans hskip) fun t _ _ _ _ => token_tab t more
      simp [hnone out]
  | false =>
      rw [ht] at hskip
      obtain ⟨key, hskip, -⟩ := hskip
      have hends : Ends s ts.reverse := by
        obtain ⟨t, hready, hr⟩ := exists_ready h.lenient
        have hrest : t.rest = [] := by rw [hr.rest, hskipped, hskip]
        have hfinish : t.finish = some ts.reverse := by
          rw [finish_of_margin_eq_zero (hr.margin.trans h.margin) (hr.lenient h.lenient), hr.tokens, h.tokens]
        exact ⟨1, (run_at_end hready hrest 0).trans hfinish⟩
      simp only [true_and]
      exact ⟨fun hout => hout.unique hends, fun hout => hout ▸ hends⟩

end Lexer

/-- Whether the text of a document can be cut into tokens: its characters are allowed, no tab stands where a key
could start, and every string can be read. -/
def isCut (d : Document) : Bool :=
  d.text.all isAllowed && !meetsTab true d.lead.1 && !meetsTab false d.trail.1 && d.members.pieces.all isLegible

open Lexer in
/-- **A document is cut into its tokens** if it can be cut at all. -/
theorem tokens?_document (d : Document) :
    tokens? d.text = if isCut d then some (.flowMapping :: tokensOfMembers d.members) else none := by
  have hcomes := (comes_brace d).trans fun t ht => comes_members d.members ht
  have hends : ∀ ts, Ends (start d.text) ts ↔
      (!meetsTab true d.lead.1 && d.members.pieces.all isLegible) = true ∧ meetsTab false d.trail.1 = false
        ∧ ts = .flowMapping :: tokensOfMembers d.members := by
    intro ts
    cases hok : !meetsTab true d.lead.1 && d.members.pieces.all isLegible with
    | false =>
        rw [hok] at hcomes
        simp [hcomes ts]
    | true =>
        rw [hok] at hcomes
        obtain ⟨t, hreach, ht⟩ := hcomes
        rw [hreach.ends_iff, ht.ends_iff d.trail.2]
        simp
  refine Option.ext fun ts => ?_
  rw [tokens?_eq_some_iff, hends]
  cases ha : d.text.all isAllowed <;> cases hl : meetsTab true d.lead.1 <;>
    cases ht : meetsTab false d.trail.1 <;> cases hp : d.members.pieces.all isLegible <;>
    simp [isCut, ha, hl, ht, hp, eq_comm]

end Stencil.Yaml
