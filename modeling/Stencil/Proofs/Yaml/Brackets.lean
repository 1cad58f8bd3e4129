import Stencil.Proofs.Json.Reading
import Stencil.Proofs.Yaml.Cutting
import Stencil.Proofs.Yaml.Opening
import Stencil.Proofs.Yaml.Shared

/-!
# JSON values between the brackets of YAML

A YAML lexer that has come to a JSON value inside brackets leaves the value where the reader of JSON does:
brackets close where they close in JSON, strings end at the same quote, and words and numbers end in front of
the next mark. It may give up on the way, since YAML limits how long a key is and which characters a text
holds; but it does not come out anywhere else.

Main statement: `leads_value`.
-/

namespace Stencil.Yaml.Lexer

variable {s t u : Lexer} {cs more rest : List Char} {c : Char} {tok : Token} {k : Nat}

/-! ## Coming past a place -/

/-- Whether a lexer that comes to the end of its text comes past a place of some kind. -/
def Leads (s : Lexer) (P : Lexer → Prop) : Prop :=
  ∀ n ts, run n s = some ts → ∃ m t, P t ∧ run m t = some ts

theorem Leads.trans {P Q : Lexer → Prop} (h : Leads s P) (hq : ∀ t, P t → Leads t Q) : Leads s Q := by
  intro n ts hn
  obtain ⟨m, t, ht, hm⟩ := h n ts hn
  exact hq t ht m ts hm

/-- A tab that could start a key starts no token. -/
theorem token_tab (s : Lexer) (cs : List Char) : s.token '\t' cs = none := by
  simp [token, startsDocumentMark, startsPlain, isGap, isBlank]

/-- Whether a character starts a token wherever it stands. -/
structure IsSolid (c : Char) : Prop where
  gap : isGap c = false
  comment : c ≠ '#'
  mark : c ≠ '\ufeff'

/-- White space of JSON is passed over up to a tab where a key could start. -/
theorem skipToToken_of_skipSpace {cs : List Char}
    (h : ∀ c more, Json.skipSpace cs = c :: more → IsSolid c) (keyAllowed flow : Bool) (column : Nat) :
    (skipToToken keyAllowed flow column false cs).1 = Json.skipSpace cs
      ∨ ∃ more, (skipToToken keyAllowed flow column false cs).1 = '\t' :: more := by
  induction cs generalizing keyAllowed column with
  | nil => exact .inl rfl
  | cons c cs ih =>
      by_cases hs : Json.isSpace c = true
      · rw [Json.skipSpace_cons, if_pos hs] at h ⊢
        simp only [Json.isSpace, Bool.or_eq_true, beq_iff_eq] at hs
        rcases hs with ((rfl | rfl) | rfl) | rfl
        · exact ih h keyAllowed (column + 1)
        · by_cases ht : (flow || !keyAllowed) = true
          · simp only [skipToToken, ht]
            exact ih h keyAllowed (column + 1)
          · refine .inr ⟨cs, ?_⟩
            simp [skipToToken, isBreak, ht]
        · exact ih h (keyAllowed || !flow) 0
        · by_cases hr : returnsBeforeNewline '\r' cs = true
          · simp only [skipToToken, hr]
            exact ih h keyAllowed column
          · simp only [skipToToken, hr]
            exact ih h (keyAllowed || !flow) 0
      · rw [Json.skipSpace_cons, if_neg hs] at h ⊢
        obtain ⟨hg, hc, hm⟩ := h c cs rfl
        simp only [isGap, isBlank, Bool.or_eq_false_iff, beq_eq_false_iff_ne] at hg
        left
        simp [skipToToken, hg, hc, hm]

/-- What a lexer does with the next token of a JSON text. -/
theorem leads_of_token {P : Lexer → Prop} (hm : s.margin = 0) (hs : Json.skipSpace s.rest = c :: more)
    (hc : IsSolid c)
    (h : ∀ t u, Ready s t → t.rest = c :: more → t.token c more = some u → P u) : Leads s P := by
  intro n ts hn
  cases n with
  | zero => cases hn
  | succ n =>
      rw [run_succ] at hn
      obtain ⟨t, ht, hn⟩ := Option.bind_eq_some_iff.mp hn
      have hr := ready_of_ready? ht
      have hsolid : ∀ d more', Json.skipSpace s.rest = d :: more' → IsSolid d := by
        intro d more' hd
        obtain ⟨rfl, -⟩ := List.cons.inj (hs.symm.trans hd)
        exact hc
      rcases skipToToken_of_skipSpace hsolid s.keyAllowed s.inFlow s.position.column with he | ⟨tab, he⟩
      · have hrest : t.rest = c :: more := (hr.rest.trans he).trans hs
        simp only [hrest, closeBlocks_of_margin_eq_zero (hr.margin.trans hm)] at hn
        obtain ⟨u, hu, hn⟩ := Option.bind_eq_some_iff.mp hn
        exact ⟨n, u, h t u hr hrest hu, hn⟩
      · have hrest : t.rest = '\t' :: tab := hr.rest.trans he
        simp only [hrest, token_tab] at hn
        contradiction

/-- At the end of a JSON text the tokens are complete. -/
theorem tokens_of_end {n : Nat} {ts : List Token} (hm : s.margin = 0) (hs : Json.skipSpace s.rest = [])
    (h : run n s = some ts) : ts = s.tokens.reverse := by
  cases n with
  | zero => cases h
  | succ n =>
      rw [run_succ] at h
      obtain ⟨t, ht, h⟩ := Option.bind_eq_some_iff.mp h
      have hr := ready_of_ready? ht
      have hsolid : ∀ d more', Json.skipSpace s.rest = d :: more' → IsSolid d := by
        intro d more' hd
        rw [hs] at hd
        contradiction
      rcases skipToToken_of_skipSpace hsolid s.keyAllowed s.inFlow s.position.column with he | ⟨tab, he⟩
      · have hrest : t.rest = [] := (hr.rest.trans he).trans hs
        simp only [hrest, finish, endDocument, closeBlocks_of_margin_eq_zero (hr.margin.trans hm)] at h
        obtain ⟨u, hu, rfl⟩ := Option.map_eq_some_iff.mp h
        obtain ⟨v, hv, hu⟩ := Option.bind_eq_some_iff.mp hu
        obtain rfl := eq_of_dropCandidate hv
        cases hu
        rw [← hr.tokens]
      · have hrest : t.rest = '\t' :: tab := hr.rest.trans he
        simp only [hrest, token_tab] at h
        contradiction

/-! ## The first token -/

/-- Whether the first token so far is none behind which a mapping may follow. -/
def Settled (ts : List Token) : Prop := ∃ tok, ts.getLast? = some tok ∧ tok.mayOpenMapping = false

theorem Settled.cons {ts : List Token} (h : Settled ts) (tok : Token) : Settled (tok :: ts) := by
  obtain ⟨first, hf, hm⟩ := h
  exact ⟨first, by simp [List.getLast?_cons, hf], hm⟩

/-- A key that is put in front of a node after the fact. -/
theorem Settled.insert_key {ts : List Token} (h : Settled ts) (n : Nat) :
    Settled (ts.take n ++ .key :: ts.drop n) := by
  obtain ⟨first, hf, hm⟩ := h
  by_cases hd : ts.drop n = []
  · exact ⟨.key, by simp [hd], rfl⟩
  · refine ⟨first, ?_, hm⟩
    obtain ⟨tok, rest, he⟩ := List.exists_cons_of_ne_nil hd
    rw [← List.take_append_drop n ts, he] at hf
    rw [he]
    simpa [List.getLast?_append, List.getLast?_cons] using hf

theorem settled_of_valueMark (hf : s.inFlow = true) (hs : Settled s.tokens)
    (h : s.valueMark cs = some u) : u.rest = cs ∧ u.outerCandidates.length = s.outerCandidates.length
      ∧ u.margin = s.margin ∧ Settled u.tokens := by
  have hb : ∀ (s : Lexer) (column : Nat), s.inFlow = true → s.opensBlock column = false := by
    intro s column hf
    simp [opensBlock, hf]
  unfold valueMark at h
  split at h
  · rename_i candidate hc
    have hf' : inFlow { s.emitAt candidate.before .key with candidate := none, keyAllowed := false }
        = true := hf
    simp only [hb _ candidate.position.column hf', Bool.false_eq_true, if_false] at h
    cases h
    exact ⟨rfl, rfl, rfl, (hs.insert_key _).cons _⟩
  · simp only [hf, openBlock, hb s _ hf] at h
    cases h
    exact ⟨rfl, rfl, rfl, hs.cons _⟩

/-! ## Inside brackets -/

/-- A place inside some brackets whose text goes on as a JSON text does. -/
structure Inside (k : Nat) (cs : List Char) (s : Lexer) : Prop where
  rest : Json.skipSpace s.rest = Json.skipSpace cs
  brackets : s.outerCandidates.length = k
  margin : s.margin = 0
  settled : Settled s.tokens

theorem Inside.of_skipSpace {cs' : List Char} (h : Inside k cs s)
    (he : Json.skipSpace cs = Json.skipSpace cs') : Inside k cs' s :=
  ⟨h.rest.trans he, h.brackets, h.margin, h.settled⟩

theorem Emits.inside (h : Emits s tok rest k u) (hm : s.margin = 0) (hs : Settled s.tokens) :
    Inside k rest u :=
  ⟨by rw [h.rest], h.brackets, h.margin.trans hm, h.tokens ▸ hs.cons tok⟩

/-- One token inside brackets. -/
theorem Inside.leads {P : Lexer → Prop} (hi : Inside k cs s) (hs : Json.skipSpace cs = c :: more)
    (hc : IsSolid c)
    (h : ∀ t u, Inside k (c :: more) t → t.rest = c :: more → t.token c more = some u → P u) :
    Leads s P := by
  refine leads_of_token hi.margin (hi.rest.trans hs) hc fun t u hr ht hu => h t u ?_ ht hu
  exact ⟨by rw [ht], hr.brackets.trans hi.brackets, hr.margin.trans hi.margin, hr.tokens ▸ hi.settled⟩

theorem Emits.inside_first (h : Emits s tok rest k u) (hm : s.margin = 0) (hs : s.tokens = [])
    (ht : tok.mayOpenMapping = false) : Inside k rest u :=
  ⟨by rw [h.rest], h.brackets, h.margin.trans hm, by rw [h.tokens, hs]; exact ⟨tok, rfl, ht⟩⟩

theorem Inside.inFlow (h : Inside (k + 1) cs s) : s.inFlow = true := by
  rw [inFlow_of_brackets h.brackets]
  exact decide_eq_true (Nat.zero_lt_succ k)

/-- An opening bracket. -/
theorem Inside.leads_open (hi : Inside k cs s) (hs : Json.skipSpace cs = c :: more)
    (hc : c = '[' ∨ c = '\x7b') : Leads s (Inside (k + 1) more) := by
  have hsolid : IsSolid c := by
    rcases hc with rfl | rfl <;> exact ⟨by decide, by decide, by decide⟩
  refine hi.leads hs hsolid fun t u ht _ hu => ?_
  have hopen : ∃ tok, t.openFlow tok more = some u := by
    rcases hc with rfl | rfl
    · exact ⟨.flowSequence, by simpa [token, startsDocumentMark] using hu⟩
    · exact ⟨.flowMapping, by simpa [token, startsDocumentMark] using hu⟩
  obtain ⟨tok, hopen⟩ := hopen
  exact ht.brackets ▸ (emits_of_openFlow hopen).inside ht.margin ht.settled

/-- A closing bracket. -/
theorem Inside.leads_close (hi : Inside (k + 1) cs s) (hs : Json.skipSpace cs = c :: more)
    (hc : c = ']' ∨ c = '\x7d') : Leads s (Inside k more) := by
  have hsolid : IsSolid c := by
    rcases hc with rfl | rfl <;> exact ⟨by decide, by decide, by decide⟩
  refine hi.leads hs hsolid fun t u ht _ hu => ?_
  have hclose : ∃ tok, t.closeFlow tok more = some u := by
    rcases hc with rfl | rfl
    · exact ⟨.flowSequenceEnd, by simpa [token, startsDocumentMark] using hu⟩
    · exact ⟨.flowMappingEnd, by simpa [token, startsDocumentMark] using hu⟩
  obtain ⟨tok, hclose⟩ := hclose
  have hinside := (emits_of_closeFlow hclose).inside ht.margin ht.settled
  rwa [ht.brackets, Nat.add_sub_cancel] at hinside

/-- A comma. -/
theorem Inside.leads_comma (hi : Inside k cs s) (hs : Json.skipSpace cs = ',' :: more) :
    Leads s (Inside k more) := by
  refine hi.leads hs ⟨by decide, by decide, by decide⟩ fun t u ht _ hu => ?_
  have hcomma : t.flowEntry more = some u := by simpa [token, startsDocumentMark] using hu
  exact ht.brackets ▸ (emits_of_flowEntry hcomma).inside ht.margin ht.settled

/-- A colon. -/
theorem Inside.leads_colon (hi : Inside (k + 1) cs s) (hs : Json.skipSpace cs = ':' :: more) :
    Leads s (Inside (k + 1) more) := by
  refine hi.leads hs ⟨by decide, by decide, by decide⟩ fun t u ht _ hu => ?_
  have hcolon : t.valueMark more = some u := by
    simpa [token, startsDocumentMark, ht.inFlow] using hu
  obtain ⟨hrest, hbrackets, hmargin, hsettled⟩ := settled_of_valueMark ht.inFlow ht.settled hcolon
  exact ⟨by rw [hrest], hbrackets.trans ht.brackets, hmargin.trans ht.margin, hsettled⟩

/-- A string, between brackets or as the whole text. -/
theorem emits_of_string {name : List Char} (hb : Json.Body more name rest)
    (hu : t.token '"' more = some u) :
    ∃ text, Emits t (.scalar false text) rest t.outerCandidates.length u := by
  have hnode : t.node ((doubleQuoted (.text .empty) more).map fun p =>
      (.scalar false (String.ofList p.1), p.2)) = some u := by
    simpa [token, startsDocumentMark] using hu
  obtain ⟨tok, behind, hread, he⟩ := emits_of_node hnode
  obtain ⟨⟨text, r⟩, hq, hr⟩ := Option.map_eq_some_iff.mp hread
  obtain ⟨rfl, rfl⟩ := Prod.mk.inj hr
  obtain rfl := rest_of_doubleQuoted hb hq
  exact ⟨_, he⟩

/-- A string. -/
theorem Inside.leads_string {name : List Char} (hi : Inside k cs s)
    (hs : Json.skipSpace cs = '"' :: more) (hb : Json.Body more name rest) :
    Leads s (Inside k rest) := by
  refine hi.leads hs ⟨by decide, by decide, by decide⟩ fun t u ht _ hu => ?_
  obtain ⟨text, he⟩ := emits_of_string hb hu
  exact ht.brackets ▸ he.inside ht.margin ht.settled

theorem token_of_alphanum (hc : c.isAlphanum = true) (s : Lexer) (cs : List Char) :
    s.token c cs = s.plainScalar := by
  have hne : ∀ d : Char, d.isAlphanum = false → c ≠ d := by
    rintro d hd rfl
    rw [hc] at hd
    contradiction
  have hbare : Json.isBareChar c = true := by simp [Json.isBareChar, hc]
  have hmarks : ∀ d ∈ indicators, d.isAlphanum = false := by simp [indicators]
  refine token_of_word (solid_of_isBareChar hbare).1 ?_ ?_
  · exact isIndicator_eq_false_of_forall fun d hd => hne d (hmarks d hd)
  · unfold startsDocumentMark
    split
    · rename_i he; exact absurd (List.cons.inj he).1 (hne _ (by decide))
    · rename_i he; exact absurd (List.cons.inj he).1 (hne _ (by decide))
    · rfl

theorem token_of_minus (hc : c.isDigit = true) (s : Lexer) (cs : List Char) :
    s.token '-' (c :: cs) = s.plainScalar := by
  have hne : c ≠ '-' := by rintro rfl; contradiction
  have hg := (solid_of_isBareChar (Json.isBareChar_of_isDigit hc)).1
  have hb : isBlank c = false := by
    rw [isGap, Bool.or_eq_false_iff] at hg
    exact hg.1
  simp [token, startsDocumentMark, startsGap, startsPlain, hne, hg, hb]

/-- A word or a number starts a plain scalar. -/
theorem token_of_bare {w : List Char} (hw : Json.Bare w) (hs : w ++ rest = c :: more) (s : Lexer) :
    s.token c more = s.plainScalar := by
  obtain ⟨d, w, rfl, hd⟩ := hw.head
  obtain ⟨rfl, rfl⟩ := List.cons.inj hs
  rcases hd with hd | ⟨rfl, e, w, rfl, he⟩
  · exact token_of_alphanum hd s _
  · exact token_of_minus he s _

/-- A word or a number, between brackets or as the whole text. -/
theorem emits_of_bare {w : List Char} (hw : Json.Bare w) (hs : w ++ rest = c :: more)
    (ht : t.rest = c :: more) (hc : Closed t.inFlow rest) (hu : t.token c more = some u) :
    ∃ text, Emits t (.scalar true text) (Json.skipSpace rest) t.outerCandidates.length u := by
  rw [token_of_bare hw hs] at hu
  obtain ⟨p, hp, he⟩ := emits_of_plainScalar hu
  rw [ht, ← hs] at hp
  exact ⟨_, rest_of_plain hw.char hc hp ▸ he⟩

theorem isSolid_of_isBareChar (h : Json.isBareChar c = true) : IsSolid c := by
  obtain ⟨hg, -, hnumber, -⟩ := solid_of_isBareChar h
  refine ⟨hg, hnumber, ?_⟩
  rintro rfl
  exact absurd h (by decide)

/-- A word or a number. -/
theorem Inside.leads_bare {w : List Char} (hi : Inside k cs s) (hs : Json.skipSpace cs = w ++ rest)
    (hw : Json.Bare w) (hc : Closed s.inFlow rest) : Leads s (Inside k rest) := by
  obtain ⟨c, more, hcons, -⟩ := hw.head
  have hsolid := isSolid_of_isBareChar (hw.char c (hcons ▸ List.mem_cons_self))
  have hsplit : w ++ rest = c :: (more ++ rest) := by rw [hcons, List.cons_append]
  refine hi.leads (hs.trans hsplit) hsolid fun t u ht hrest hu => ?_
  have hflow : t.inFlow = s.inFlow := by
    rw [inFlow_of_brackets ht.brackets, inFlow_of_brackets hi.brackets]
  obtain ⟨text, he⟩ := emits_of_bare hw hsplit hrest (hflow ▸ hc) hu
  exact (ht.brackets ▸ he.inside ht.margin ht.settled).of_skipSpace (Json.skipSpace_skipSpace rest)

/-! ## Values -/

/-- Whether a mark between brackets stands behind a value. -/
def Followed (cs : List Char) : Prop :=
  ∃ c more, Json.skipSpace cs = c :: more ∧ isFlowIndicator c = true

/-- Whether a lexer inside brackets leaves what is read of a JSON text where JSON does. -/
def Passes {α : Type} (one : Json.Read α) : Prop :=
  ∀ {cs rest : List Char} {a : α} {k : Nat} {s : Lexer}, one cs a rest → Followed rest →
    Inside (k + 1) cs s → Leads s (Inside (k + 1) rest)

theorem leads_listed {α : Type} {one : Json.Read α} {close : Char} {as : List α} (ho : Passes one)
    (hc : close = ']' ∨ close = '\x7d') (h : Json.Listed one close cs as rest)
    (hi : Inside (k + 1) cs s) : Leads s (Inside k rest) := by
  induction h generalizing s with
  | last ha hs =>
      have hclose : isFlowIndicator close = true := by rcases hc with rfl | rfl <;> rfl
      exact (ho ha ⟨_, _, hs, hclose⟩ hi).trans fun t ht => ht.leads_close hs hc
  | more ha hs has ih =>
      refine (ho ha ⟨_, _, hs, rfl⟩ hi).trans fun t ht => ?_
      exact (ht.leads_comma hs).trans fun u hu => ih hu

theorem passes_member {item : List Char → Option (Json × List Char)} (ho : Passes (Json.Item item)) :
    Passes (Json.Member item) := by
  rintro cs rest e k s ⟨hq, hk, hc, hv⟩ hf hi
  refine (hi.leads_string hq hk).trans fun t ht => ?_
  exact (ht.leads_colon hc).trans fun u hu => ho hv hf hu

theorem passes_shape {depth : Nat} (ho : ∀ d, depth = d + 1 → Passes (Json.Item (Json.value d)))
    {v : Json} (h : Json.Shape depth (Json.skipSpace cs) v rest) (hf : Followed rest)
    (hi : Inside (k + 1) cs s) : Leads s (Inside (k + 1) rest) := by
  have hclosed : Closed s.inFlow rest := .inr ⟨hi.inFlow, hf⟩
  generalize hs : Json.skipSpace cs = ds at h
  cases h with
  | string h => exact hi.leads_string hs h
  | word h => exact hi.leads_bare hs (Json.bare_of_mem_words h) hclosed
  | number hn =>
      obtain ⟨w, rfl, hw⟩ := Json.spelled_of_numerals? hn
      exact hi.leads_bare hs (Json.bare_of_spelled hw) hclosed
  | emptyArray h => exact (hi.leads_open hs (.inl rfl)).trans fun t ht => ht.leads_close h (.inl rfl)
  | array h =>
      exact (hi.leads_open hs (.inl rfl)).trans fun t ht =>
        leads_listed (ho _ rfl) (.inl rfl) h ht
  | emptyObject h => exact (hi.leads_open hs (.inr rfl)).trans fun t ht => ht.leads_close h (.inr rfl)
  | object h =>
      exact (hi.leads_open hs (.inr rfl)).trans fun t ht =>
        leads_listed (passes_member (ho _ rfl)) (.inr rfl) h ht

/-- **A value inside brackets ends where it ends in JSON.** -/
theorem leads_value (depth : Nat) : Passes (Json.Item (Json.value depth)) := by
  induction depth with
  | zero =>
      intro cs rest v k s h
      exact passes_shape (fun d hd => by contradiction) (Json.value_eq_some_iff.mp h)
  | succ depth ih =>
      intro cs rest v k s h
      refine passes_shape (fun d hd => ?_) (Json.value_eq_some_iff.mp h)
      obtain rfl := Nat.succ.inj hd
      exact ih

end Stencil.Yaml.Lexer
