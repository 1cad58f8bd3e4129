import Stencil.Template.Token.Lexer

/-!
# How a template in writing is cut

What a text is cut into is told from its end: where the rest of a text is cut into some tokens, a word, a
literal or a sign in front of it is one more (`Cuts`). There is one rule for each kind of piece, and a piece that
is longer is put together from them. Nothing is said of lines, since they matter to faults alone.
-/

namespace Stencil.Template

variable {place : Place} {isBlock : Bool} {nesting : Int} {c : Char} {cs rest lead : List Char}
  {made : List Token}

/-- Whether a text is cut into some tokens from a place on, and without a fault. -/
def Cuts (place : Place) (cs : List Char) (made : List Token) : Prop :=
  ∀ line n, cs.length < n → ∃ ts, cut n place line cs = ⟨ts, none⟩ ∧ ts.map Placed.token = made

/-- The tokens of a template are what it is cut into. -/
theorem Cuts.ofText (h : Cuts (.text false) cs made) :
    ∃ ts, Tokens.ofText true cs = ⟨ts, none⟩ ∧ ts.map Placed.token = made := h 1 _ (Nat.lt_succ_self _)

/-! ## Text -/

/-- The token of a text, unless it is empty. -/
def textTokens (cs : List Char) : List Token := if cs = [] then [] else [.text cs]

theorem map_token_text (lead : List Char) (line : Nat) (ts : Tokens) :
    (Tokens.text lead line ts).tokens.map Placed.token = textTokens lead ++ ts.tokens.map Placed.token
      ∧ (Tokens.text lead line ts).fault = ts.fault := by
  unfold Tokens.text textTokens
  split
  · exact ⟨rfl, rfl⟩
  · exact ⟨rfl, rfl⟩

/-- A text without a brace has no mark in it. -/
theorem findMark_of_not_mem (h : '\x7b' ∉ cs) : findMark cs = (cs, none) := by
  induction cs with
  | nil => rfl
  | cons c cs ih =>
      obtain ⟨hc, hcs⟩ := not_or.mp (mt List.mem_cons.mpr h)
      rw [findMark, if_neg (Ne.symm hc), ih hcs]

/-- The first mark after a text without a brace. -/
theorem findMark_append {mark : Mark} (h : '\x7b' ∉ lead) (hmark : Mark.ofChar? c = some mark) :
    findMark (lead ++ '\x7b' :: c :: rest) = (lead, some (mark, rest)) := by
  induction lead with
  | nil => simp [findMark, hmark]
  | cons d lead ih =>
      obtain ⟨hd, hlead⟩ := not_or.mp (mt List.mem_cons.mpr h)
      rw [List.cons_append, findMark, if_neg (Ne.symm hd), ih hlead]

/-- Text goes on to the end of a template where it has no mark. -/
theorem cuts_text (h : '\x7b' ∉ lead) : Cuts (.text false) lead (textTokens lead) := by
  intro line n hn
  obtain ⟨n, rfl⟩ := Nat.exists_eq_add_of_lt hn
  obtain ⟨htokens, hfault⟩ := map_token_text lead line .done
  refine ⟨(Tokens.text lead line .done).tokens, ?_, by rw [htokens]; exact List.append_nil _⟩
  simp only [cut, findMark_of_not_mem h, Bool.false_eq_true, if_false]
  exact congrArg (Tokens.mk _) hfault

/-- Text goes on to a mark, and all of it stands where no sign follows the mark. -/
theorem cuts_open {mark : Token}
    (hcut : ∀ n line, cut (n + 1) (.text false) line (lead ++ '\x7b' :: c :: rest)
      = .text lead line (.cons mark (line + newlines lead)
          (cut n (.code isBlock 0) (line + newlines lead) rest)))
    (hrest : Cuts (.code isBlock 0) rest made) :
    Cuts (.text false) (lead ++ '\x7b' :: c :: rest) (textTokens lead ++ mark :: made) := by
  intro line n hn
  obtain ⟨n, rfl⟩ : ∃ m, n = m + 1 := ⟨n - 1, by omega⟩
  have hlen : rest.length < n := by
    simp only [List.length_append, List.length_cons] at hn
    omega
  obtain ⟨ts, hts, hmade⟩ := hrest (line + newlines lead) n hlen
  let inside : Tokens := .cons mark (line + newlines lead) ⟨ts, none⟩
  obtain ⟨htokens, hfault⟩ := map_token_text lead line inside
  refine ⟨(Tokens.text lead line inside).tokens, ?_, ?_⟩
  · rw [hcut, hts]
    exact congrArg (Tokens.mk _) hfault
  · rw [htokens]
    exact congrArg (textTokens lead ++ mark :: ·) hmade

/-- The mark of an expression. -/
theorem cuts_openPrint (h : '\x7b' ∉ lead) (hsign : dropSign rest = (false, rest))
    (hrest : Cuts (.code false 0) rest made) :
    Cuts (.text false) (lead ++ '\x7b' :: '\x7b' :: rest) (textTokens lead ++ .openPrint :: made) := by
  refine cuts_open (fun n line => ?_) hrest
  have hmark : findMark (lead ++ '\x7b' :: '\x7b' :: rest) = (lead, some (.print, rest)) :=
    findMark_append h rfl
  simp only [cut, hmark, hsign, Bool.false_eq_true, if_false]

/-- The mark of a statement, which is not one that makes the text behind it stand as it is. -/
theorem cuts_openBlock (h : '\x7b' ∉ lead) (hsign : dropSign rest = (false, rest))
    (hraw : wordBlock? ['r', 'a', 'w'] rest = none) (hrest : Cuts (.code true 0) rest made) :
    Cuts (.text false) (lead ++ '\x7b' :: '%' :: rest) (textTokens lead ++ .openBlock :: made) := by
  refine cuts_open (fun n line => ?_) hrest
  have hmark : findMark (lead ++ '\x7b' :: '%' :: rest) = (lead, some (.block, rest)) :=
    findMark_append h rfl
  simp only [cut, hmark, hsign, hraw, Bool.false_eq_true, if_false]

/-! ## Between the marks -/

/-- Whether a character is no start of a closing mark. -/
def IsInner (c : Char) : Prop := c ≠ '-' ∧ c ≠ '+' ∧ c ≠ '%' ∧ c ≠ '\x7d'

instance : Decidable (IsInner c) := inferInstanceAs (Decidable (_ ∧ _))

theorem dropSign_of_isInner (h : IsInner c) : dropSign (c :: cs) = (false, c :: cs) := by
  unfold dropSign
  split
  · exact absurd (List.cons.inj ‹_›).1 h.1
  · exact absurd (List.cons.inj ‹_›).1 h.2.1
  · rfl

theorem closing?_of_isInner (h : IsInner c) : closing? isBlock (c :: cs) = none := by
  simp only [closing?, dropSign_of_isInner h]
  split
  · rename_i hcons
    obtain ⟨rfl, -⟩ := List.cons.inj hcons
    have hne : c ≠ if isBlock then '%' else '\x7d' := by
      cases isBlock
      · exact h.2.2.2
      · exact h.2.2.1
    rw [if_neg hne]
  · rfl

/-- White space between tokens is passed over. -/
theorem cuts_space (hspace : isSpace c = true) (hrest : Cuts (.code isBlock nesting) rest made) :
    Cuts (.code isBlock nesting) (c :: rest) made := by
  have hinner : IsInner c := by
    refine ⟨?_, ?_, ?_, ?_⟩ <;> rintro rfl <;> contradiction
  intro line n hn
  obtain ⟨n, rfl⟩ : ∃ m, n = m + 1 := ⟨n - 1, by omega⟩
  obtain ⟨ts, hts, hmade⟩ := hrest (if c = '\n' then line + 1 else line) n (Nat.lt_of_succ_lt_succ hn)
  refine ⟨ts, ?_, hmade⟩
  simp only [cut, closing?_of_isInner hinner, ite_self, hspace, if_true, hts]

/-- A word, literal or sign is a token in front of what comes after it. -/
theorem cuts_lexeme {l : Lexeme} (hinner : IsInner c) (hspace : isSpace c = false)
    (hl : ∀ line, lexeme line c cs = .ok l) (hlen : l.rest.length ≤ cs.length)
    (hrest : Cuts (.code isBlock (nesting + l.token.nesting)) l.rest made) :
    Cuts (.code isBlock nesting) (c :: cs) (l.token :: made) := by
  intro line n hn
  obtain ⟨n, rfl⟩ : ∃ m, n = m + 1 := ⟨n - 1, by omega⟩
  have hlt : l.rest.length < n := by
    rw [List.length_cons] at hn
    omega
  obtain ⟨ts, hts, hmade⟩ := hrest (line + l.lineEnds) n hlt
  refine ⟨⟨l.token, line⟩ :: ts, ?_, congrArg (l.token :: ·) hmade⟩
  simp only [cut, closing?_of_isInner hinner, ite_self, hspace, Bool.false_eq_true, if_false, hl, hts,
    Tokens.cons]

/-- The characters that a sign of two may start with. -/
def pairStarts : List Char := ['/', '*', '=', '!', '>', '<']

theorem sign2?_eq_none (h : c ∉ pairStarts) (next : Option Char) : next.bind (sign2? c) = none := by
  simp only [pairStarts, List.mem_cons, List.not_mem_nil, or_false, not_or] at h
  cases next with
  | none => rfl
  | some d => simp [sign2?, h]

/-- A sign of one character that no sign of two starts with. -/
theorem cuts_sign {t : Token} (hinner : IsInner c) (hspace : isSpace c = false) (ht : sign? c = some t)
    (hpair : c ∉ pairStarts) (hrest : Cuts (.code isBlock (nesting + t.nesting)) rest made) :
    Cuts (.code isBlock nesting) (c :: rest) (t :: made) := by
  refine cuts_lexeme (l := ⟨t, 0, rest⟩) hinner hspace (fun line => ?_) (Nat.le_refl _) hrest
  simp only [lexeme, sign2?_eq_none hpair, ht]

/-- The mark that ends an expression or a statement. -/
theorem cuts_close {mark : Token} (hmark : mark = if isBlock then .closeBlock else .closePrint)
    (hclose : closing? isBlock (c :: '\x7d' :: rest) = some (false, rest))
    (hrest : Cuts (.text false) rest made) :
    Cuts (.code isBlock 0) (c :: '\x7d' :: rest) (mark :: made) := by
  intro line n hn
  obtain ⟨n, rfl⟩ : ∃ m, n = m + 1 := ⟨n - 1, by omega⟩
  have hlt : rest.length < n := by
    simp only [List.length_cons] at hn
    omega
  obtain ⟨ts, hts, hmade⟩ := hrest line n hlt
  refine ⟨⟨mark, line⟩ :: ts, ?_, congrArg (mark :: ·) hmade⟩
  simp only [cut, hclose, if_true, hts, Tokens.cons, hmark]

theorem cuts_closePrint (hrest : Cuts (.text false) rest made) :
    Cuts (.code false 0) ('\x7d' :: '\x7d' :: rest) (.closePrint :: made) := cuts_close rfl rfl hrest

theorem cuts_closeBlock (hrest : Cuts (.text false) rest made) :
    Cuts (.code true 0) ('%' :: '\x7d' :: rest) (.closeBlock :: made) := cuts_close rfl rfl hrest

/-! ## Words -/

def isWord (s : String) : Bool :=
  match s.toList with
  | [] => false
  | c :: cs => startsName c && cs.all continuesName

theorem exists_of_isWord {s : String} (h : isWord s = true) :
    ∃ c cs, s.toList = c :: cs ∧ startsName c = true ∧ cs.all continuesName = true := by
  unfold isWord at h
  split at h
  · contradiction
  · rename_i c cs hs
    exact ⟨c, cs, hs, Bool.and_eq_true_iff.mp h⟩

/-- What starts a word comes after the digits. -/
theorem lt_of_startsName (h : startsName c = true) : '9'.val < c.val := by
  rcases (Bool.or_eq_true _ _).mp h with hletter | hline
  · rcases (Bool.or_eq_true _ _).mp hletter with hupper | hlower
    · exact Nat.lt_of_lt_of_le (by decide) (of_decide_eq_true hupper).1
    · exact Nat.lt_of_lt_of_le (by decide) (of_decide_eq_true ((Bool.and_eq_true _ _).mp hlower).1)
  · rw [eq_of_beq hline]
    decide

/-- What starts a word is no sign, no quote, no digit and no white space. -/
theorem of_startsName (h : startsName c = true) :
    IsInner c ∧ isSpace c = false ∧ c ∉ pairStarts ∧ sign? c = none ∧ ¬ (c = '\'' ∨ c = '"')
      ∧ c.isDigit = false := by
  have hne (d : Char) (hd : startsName d = false) : c ≠ d := by
    rintro rfl
    rw [hd] at h
    contradiction
  refine ⟨⟨hne _ rfl, hne _ rfl, hne _ rfl, hne _ rfl⟩, ?_, ?_, ?_, ?_, ?_⟩
  · simp [isSpace, hne ' ' rfl, hne '\t' rfl, hne '\n' rfl, hne '\x0c' rfl, hne '\r' rfl]
  · simp [pairStarts, hne '/' rfl, hne '*' rfl, hne '=' rfl, hne '!' rfl, hne '>' rfl, hne '<' rfl]
  · unfold sign?
    split <;> first | rfl | exact absurd h (by decide)
  · exact not_or.mpr ⟨hne _ rfl, hne _ rfl⟩
  · rw [Char.isDigit, decide_eq_false (UInt32.not_le.mpr (lt_of_startsName h)), Bool.and_false]

theorem takeWhile_of_head? {p : Char → Bool} (h : ∀ d ∈ rest.head?, p d = false) :
    rest.takeWhile p = [] ∧ rest.dropWhile p = rest := by
  cases rest with
  | nil => exact ⟨rfl, rfl⟩
  | cons d rest =>
      have hd : p d = false := h d rfl
      simp [hd]

/-- A word ends where the text does not go on with it. -/
theorem cuts_word {s : String} (hs : isWord s = true) (hend : ∀ d ∈ rest.head?, continuesName d = false)
    (hrest : Cuts (.code isBlock nesting) rest made) :
    Cuts (.code isBlock nesting) (s.toList ++ rest) (.name s :: made) := by
  obtain ⟨c, cs, hcs, hc, hall⟩ := exists_of_isWord hs
  obtain ⟨hinner, hspace, hpair, hsign, hquote, hdigit⟩ := of_startsName hc
  have hpos : ∀ d ∈ cs, continuesName d = true := List.all_eq_true.mp hall
  have htake : (cs ++ rest).takeWhile continuesName = cs := by
    rw [List.takeWhile_append_of_pos hpos, (takeWhile_of_head? hend).1, List.append_nil]
  have hdrop : (cs ++ rest).dropWhile continuesName = rest := by
    rw [List.dropWhile_append_of_pos hpos, (takeWhile_of_head? hend).2]
  have hname : String.ofList (c :: cs) = s := by rw [← hcs, String.ofList_toList]
  rw [hcs, List.cons_append]
  refine cuts_lexeme (l := ⟨.name s, 0, rest⟩) hinner hspace (fun line => ?_) ?_ ?_
  · simp only [lexeme, sign2?_eq_none hpair, hsign, if_neg hquote, hdigit, Bool.false_eq_true, if_false, hc, if_true,
      htake, hdrop, hname]
  · simp
  · rwa [show nesting + (Token.name s).nesting = nesting from Int.add_zero _]

/-! ## Strings -/

/-- Whether a text may stand between quotes as it is. -/
def isQuotable (s : String) : Bool := s.toList.all fun c => c != '"' && c != '\\'

theorem ne_of_isQuotable {s : String} (h : isQuotable s = true) : ∀ c ∈ s.toList, c ≠ '"' ∧ c ≠ '\\' := by
  simpa [isQuotable] using h

theorem quotedBody_append (h : ∀ c ∈ cs, c ≠ '"' ∧ c ≠ '\\') :
    quotedBody '"' (cs ++ '"' :: rest) = some (cs, rest) := by
  induction cs with
  | nil =>
      unfold quotedBody
      exact if_pos rfl
  | cons c cs ih =>
      obtain ⟨⟨hquote, hslash⟩, hcs⟩ := List.forall_mem_cons.mp h
      unfold quotedBody
      rw [List.cons_append]
      dsimp only
      rw [if_neg hquote, if_neg hslash, ih hcs, Option.map_some]

theorem unescape?_of_forall_ne (h : ∀ c ∈ cs, c ≠ '\\') : unescape? 0 none cs = some cs := by
  induction cs with
  | nil => rfl
  | cons c cs ih =>
      obtain ⟨hslash, hcs⟩ := List.forall_mem_cons.mp h
      simp [unescape?, hslash, ih hcs]

/-- A text between quotes is a string without escapes. -/
theorem cuts_string {s : String} (hs : isQuotable s = true)
    (hrest : Cuts (.code isBlock nesting) rest made) :
    Cuts (.code isBlock nesting) ('"' :: s.toList ++ '"' :: rest) (.string s true :: made) := by
  have hne := ne_of_isQuotable hs
  have hplain : s.toList.contains '\\' = false := by
    rw [List.contains_eq_mem, decide_eq_false_iff_not]
    exact fun hmem => (hne _ hmem).2 rfl
  have hpair : '"' ∉ pairStarts := by decide
  have hsign : sign? '"' = none := rfl
  have hunescaped : unescape? 0 none s.toList = some s.toList :=
    unescape?_of_forall_ne fun c hc => (hne c hc).2
  rw [List.cons_append]
  refine cuts_lexeme (l := ⟨.string s true, newlines s.toList, rest⟩) (by decide) rfl (fun line => ?_) ?_ ?_
  · simp only [lexeme, sign2?_eq_none hpair, hsign, or_true, if_true, quotedBody_append hne, hunescaped,
      String.ofList_toList, hplain, Bool.not_false]
  · simp
    omega
  · rwa [show nesting + (Token.string s true).nesting = nesting from Int.add_zero _]

end Stencil.Template
