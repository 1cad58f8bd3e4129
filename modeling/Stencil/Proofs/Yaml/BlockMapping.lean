import Stencil.Proofs.Text.Lines
import Stencil.Proofs.Yaml.Brackets
import Stencil.Proofs.Yaml.Inline
import Stencil.Proofs.Yaml.Steps

/-!
# Tokens of a block mapping

A mapping in block style has an entry on each line: a name, a colon, and a phrase of plain words. The first name
opens the mapping once its colon is seen, the names below it stand in the same column and go on with it, and the
end of the text closes it.

Main statement: `tokens?_blockDocument`.
-/

namespace Stencil.Yaml

open Stencil.Text

/-! ## Entries -/

/-- The characters that names start with. -/
def isNameHead (c : Char) : Bool := c.isLower || c == '_'

def isNameTail (c : Char) : Bool := isNameHead c || c.isDigit

def isPhraseChar (c : Char) : Bool := c.isLower || c.isDigit || c == ' '

/-- Whether a text is a name of lower-case letters, digits and underscores, with no digit in front. -/
def isName (cs : List Char) : Bool := cs.head?.any isNameHead && cs.all isNameTail

/-- Whether a text is words of lower-case letters and digits with spaces between them, a letter in front. -/
def isPhrase (cs : List Char) : Bool :=
  cs.head?.any Char.isLower && cs.all isPhraseChar && cs.getLast? != some ' '

/-- Whether an entry can stand on a line without quotes: a name that is not too long for a key, and a phrase. -/
structure IsBlockEntry (e : List Char × List Char) : Prop where
  name : isName e.1 = true
  short : e.1.length ≤ 1000
  phrase : isPhrase e.2 = true

instance (e : List Char × List Char) : Decidable (IsBlockEntry e) :=
  decidable_of_iff (isName e.1 = true ∧ e.1.length ≤ 1000 ∧ isPhrase e.2 = true)
    ⟨fun ⟨hn, hs, hp⟩ => ⟨hn, hs, hp⟩, fun ⟨hn, hs, hp⟩ => ⟨hn, hs, hp⟩⟩

def entryLine (e : List Char × List Char) : List Char := e.1 ++ ':' :: ' ' :: e.2

/-- The text of some entries, with a newline between each and the next. -/
def blockDocument (es : List (List Char × List Char)) : List Char := join ['\n'] (es.map entryLine)

def entryTokens (e : List Char × List Char) : List Token :=
  [.key, .scalar true (String.ofList e.1), .value, .scalar true (String.ofList e.2)]

/-! ## Characters -/

theorem isAlphanum_of_isLower {c : Char} (h : c.isLower = true) : c.isAlphanum = true := by
  have hkinds : c.isAlphanum = ((c.isUpper || c.isLower) || c.isDigit) := rfl
  rw [hkinds, h, Bool.or_true, Bool.true_or]

theorem isBareChar_of_isLower {c : Char} (h : c.isLower = true) : Json.isBareChar c = true := by
  simp [Json.isBareChar, isAlphanum_of_isLower h]

theorem isInner_of_isNameTail {c : Char} (h : isNameTail c = true) : IsInner c := by
  simp only [isNameTail, isNameHead, Bool.or_eq_true, beq_iff_eq] at h
  rcases h with (h | rfl) | h
  · exact isInner_of_isBareChar (isBareChar_of_isLower h)
  · exact ⟨by decide, by decide, by decide, by decide⟩
  · exact isInner_of_isBareChar (Json.isBareChar_of_isDigit h)

theorem isNameTail_of_isPhraseChar {c : Char} (h : isPhraseChar c = true) : c = ' ' ∨ isNameTail c = true := by
  simp only [isPhraseChar, Bool.or_eq_true, beq_iff_eq] at h
  rcases h with (h | h) | h
  · exact .inr (by simp [isNameTail, isNameHead, h])
  · exact .inr (by simp [isNameTail, h])
  · exact .inl h

theorem bounds_of_isNameTail {c : Char} (h : isNameTail c = true) : 0x2B ≤ c.toNat ∧ c.toNat ≤ 0x7A := by
  simp only [isNameTail, isNameHead, Bool.or_eq_true, beq_iff_eq] at h
  rcases h with (h | rfl) | h
  · exact Json.bounds_of_isBareChar (isBareChar_of_isLower h)
  · decide
  · exact Json.bounds_of_isBareChar (Json.isBareChar_of_isDigit h)

theorem isAllowed_of_isNameTail {c : Char} (h : isNameTail c = true) : isAllowed c = true := by
  have hb := bounds_of_isNameTail h
  have hrange : 0x20 ≤ c.toNat ∧ c.toNat ≤ 0x7E := by omega
  simp [isAllowed, hrange]

/-- A character of a name takes one byte. -/
theorem utf8Size_of_isNameTail {c : Char} (h : isNameTail c = true) : c.utf8Size = 1 := by
  have hval : c.val ≤ 0x7F := by
    rw [UInt32.le_iff_toNat_le]
    exact Nat.le_trans (bounds_of_isNameTail h).2 (by decide)
  simp [Char.utf8Size, hval]

theorem bytes_of_isName {k : List Char} (h : k.all isNameTail = true) : bytes k = k.length := by
  induction k with
  | nil => rfl
  | cons c k ih =>
      rw [List.all_cons, Bool.and_eq_true] at h
      rw [bytes_cons, ih h.2, utf8Size_of_isNameTail h.1, List.length_cons, Nat.add_comm]

theorem isSolid_of_isInner {c : Char} (h : IsInner c) (hm : c ≠ '\ufeff') : Lexer.IsSolid c :=
  ⟨h.gap, h.comment, hm⟩

theorem isSolid_of_isNameHead {c : Char} (h : isNameHead c = true) : Lexer.IsSolid c := by
  refine isSolid_of_isInner (isInner_of_isNameTail (by simp [isNameTail, h])) ?_
  rintro rfl
  exact absurd h (by decide)

theorem exists_of_isName {k : List Char} (h : isName k = true) :
    ∃ c more, k = c :: more ∧ isNameHead c = true ∧ k.all isNameTail = true := by
  rw [isName, Bool.and_eq_true] at h
  cases k with
  | nil => simp at h
  | cons c more => exact ⟨c, more, rfl, h.1, h.2⟩

theorem exists_of_isPhrase {v : List Char} (h : isPhrase v = true) :
    ∃ c more, v = c :: more ∧ c.isLower = true ∧ v.all isPhraseChar = true
      ∧ ∃ d, v.getLast? = some d ∧ d ≠ ' ' := by
  simp only [isPhrase, Bool.and_eq_true, bne_iff_ne, ne_eq] at h
  obtain ⟨⟨hhead, hall⟩, hlast⟩ := h
  cases v with
  | nil => simp at hhead
  | cons c more =>
      have hl := List.getLast?_eq_some_getLast (List.cons_ne_nil c more)
      exact ⟨c, more, rfl, hhead, hall, _, hl, fun he => hlast (by rw [hl, he])⟩

theorem exists_blockDocument {es : List (List Char × List Char)} (hne : es ≠ []) (h : ∀ e ∈ es, IsBlockEntry e)
    (tail : List Char) :
    ∃ c cs, blockDocument es ++ tail = c :: cs ∧ isNameHead c = true ∧ ':' ∈ cs := by
  obtain ⟨e, es, rfl⟩ := List.exists_cons_of_ne_nil hne
  obtain ⟨c, key, hkey, hc, -⟩ := exists_of_isName (h e List.mem_cons_self).name
  let more := (es.map entryLine).flatMap ('\n' :: ·)
  refine ⟨c, key ++ ':' :: ' ' :: (e.2 ++ (more ++ tail)), ?_, hc, by simp⟩
  have hdocument : blockDocument (e :: es) = entryLine e ++ more := join_cons _ _
  rw [hdocument, entryLine, hkey]
  simp only [List.cons_append, List.append_assoc]

namespace Lexer

variable {s : Lexer}

/-! ## Places that white space does not change -/

theorem dropStale_of_fresh (hc : ∀ c, s.candidate = some c → isStale s.position c = false)
    (ho : s.outerCandidates = []) : s.dropStale = some s := by
  have hkept : kept s.position s.candidate = s.candidate ∧ isRefused s.position s.candidate = false := by
    cases h : s.candidate with
    | none => exact ⟨rfl, rfl⟩
    | some c => simp [kept, isRefused, hc c h]
  have houter : s.outerCandidates.map (kept s.position) = s.outerCandidates
      ∧ s.outerCandidates.any (isRefused s.position) = false := by simp [ho]
  rw [dropStale_eq, hkept.1, hkept.2, houter.1, houter.2]
  rfl

theorem skipToToken_of_solid {c : Char} (h : IsSolid c) (keyAllowed flow : Bool) (column : Nat) (cs : List Char) :
    skipToToken keyAllowed flow column false (c :: cs) = (c :: cs, keyAllowed) := by
  have hgap := h.gap
  simp only [isGap, isBlank, Bool.or_eq_false_iff, beq_eq_false_iff_ne] at hgap
  simp [skipToToken, hgap, h.comment, h.mark]

/-- In front of a token nothing is passed over. -/
theorem ready?_of_solid {c : Char} {cs : List Char} (hr : s.rest = c :: cs) (hs : IsSolid c)
    (hc : ∀ c, s.candidate = some c → isStale s.position c = false) (ho : s.outerCandidates = []) :
    s.ready? = some s := by
  have hat : s.atToken = s := by
    obtain ⟨rest, _, _, _, _, _, _, _, _⟩ := s
    obtain rfl : rest = c :: cs := hr
    rw [atToken_eq, skipped_of_word rfl hs.gap hs.comment hs.mark]
    simp [moveTo, Position.advance]
  rw [ready?, hat, dropStale_of_fresh hc ho]

/-- No block collection ends where the margin is not beyond. -/
theorem closeBlocks_of_margin_le {m : Nat} (h : s.margin ≤ m) : s.closeBlocks m = s := by
  have hclosed : (s.margin :: s.outerMargins).takeWhile (m < ·) = [] := by
    simp [Nat.not_lt.mpr h]
  cases s
  simp [closeBlocks, hclosed]

theorem token_of_isNameHead {c : Char} (h : isNameHead c = true) (s : Lexer) (cs : List Char) :
    s.token c cs = s.plainScalar := by
  simp only [isNameHead, Bool.or_eq_true, beq_iff_eq] at h
  rcases h with h | rfl
  · exact token_of_alphanum (isAlphanum_of_isLower h) s cs
  · exact token_of_word (by decide) (by decide) rfl

/-! ## The places on the line of an entry -/

variable {p q : Position} (opened : Bool) (ts : List Token)

/-- The start of a line, where the mapping may have been opened by a line above. -/
def atLine (opened : Bool) (p : Position) (ts : List Token) (cs : List Char) : Lexer :=
  ⟨cs, p, opened.toNat, if opened then [0] else [], true, none, [], ts, ts.length⟩

/-- The place behind a name, which started at the position `p`. -/
def behindName (opened : Bool) (p q : Position) (k : List Char) (ts : List Token) (cs : List Char) : Lexer :=
  ⟨cs, q, opened.toNat, if opened then [0] else [], false, some ⟨ts.length, p, opened⟩, [],
    .scalar true (String.ofList k) :: ts, ts.length + 1⟩

/-- The tokens up to the first entry below the place where the mapping may have been opened. -/
def opening (opened : Bool) : List Token := if opened then [] else [.blockMapping]

/-- The place behind some tokens of an entry whose name is known to be a key. -/
def inEntry (keyAllowed : Bool) (q : Position) (ts : List Token) (cs : List Char) : Lexer :=
  ⟨cs, q, 1, [0], keyAllowed, none, [], ts, ts.length⟩

theorem plain_name {k : List Char} (hk : isName k = true) (margin : Nat) (cs : List Char) :
    plain false margin .empty false (k ++ ':' :: ' ' :: cs) = some ⟨k, ':' :: ' ' :: cs, false⟩ := by
  obtain ⟨c, more, rfl, -, hall⟩ := exists_of_isName hk
  have hinner : ∀ d ∈ c :: more, IsInner d := fun d hd => isInner_of_isNameTail (List.all_eq_true.mp hall d hd)
  have hlast : ∃ d, (c :: more).getLast? = some d ∧ d ≠ ' ' := by
    refine ⟨_, List.getLast?_eq_some_getLast (List.cons_ne_nil c more), ?_⟩
    have hgap := (hinner _ (List.getLast_mem (List.cons_ne_nil c more))).gap
    intro he
    rw [he] at hgap
    contradiction
  have hend : plain false margin .empty false (':' :: ' ' :: cs) = some ⟨[], ':' :: ' ' :: cs, false⟩ := by
    simp [plain, returnsBeforeNewline, isBlank, isBreak, leavesPlain, strayColon, endsPlain, startsGap, isGap]
  rw [Gap.empty, plain_append (fun d hd => .inr (hinner d hd)) hlast, hend]
  simp

/-- A name is a plain scalar, which has to be a key if the mapping has been opened. -/
theorem steps_name {k : List Char} (hk : isName k = true) (hp : p.column = 0) (cs : List Char) :
    Steps (atLine opened p ts (k ++ ':' :: ' ' :: cs))
      (behindName opened p (p.advance k.length (k ++ ':' :: ' ' :: cs)) k ts (':' :: ' ' :: cs)) := by
  have hplain := plain_name hk opened.toNat cs
  obtain ⟨c, more, rfl, hhead, -⟩ := exists_of_isName hk
  rw [List.cons_append] at hplain ⊢
  have hready : (atLine opened p ts (c :: (more ++ ':' :: ' ' :: cs))).ready?
      = some (atLine opened p ts (c :: (more ++ ':' :: ' ' :: cs))) :=
    ready?_of_solid rfl (isSolid_of_isNameHead hhead) (by simp [atLine]) rfl
  refine ⟨_, c, more ++ ':' :: ' ' :: cs, hready, rfl, ?_⟩
  rw [closeBlocks_of_margin_le (by cases opened <;> simp [atLine]), token_of_isNameHead hhead]
  have hrequired : (opened.toNat == p.column + 1) = opened := by rw [hp]; cases opened <;> rfl
  have hlength : more.length + (cs.length + 1 + 1) - (cs.length + 1) = more.length + 1 := by omega
  simp [plainScalar, noteCandidate, dropCandidate, atLine, behindName, inFlow, moveTo, emit, hplain, hrequired,
    hlength, bind]

/-- The colon behind a name makes it a key, and opens the mapping if that was not done. -/
theorem steps_colon {k : List Char} (hq : q.line = p.line) (hi : q.index ≤ p.index + 1024) (hp : p.column = 0)
    (cs : List Char) :
    Steps (behindName opened p q k ts (':' :: ' ' :: cs))
      (inEntry false (q.next ':' (' ' :: cs)) (.value :: .scalar true (String.ofList k) :: .key :: (opening opened ++ ts))
        (' ' :: cs)) := by
  have hready : (behindName opened p q k ts (':' :: ' ' :: cs)).ready?
      = some (behindName opened p q k ts (':' :: ' ' :: cs)) := by
    refine ready?_of_solid rfl ⟨by decide, by decide, by decide⟩ ?_ rfl
    rintro c ⟨⟩
    show isStale q _ = false
    simp [isStale, hq, Nat.not_lt.mpr hi]
  refine ⟨_, ':', ' ' :: cs, hready, rfl, ?_⟩
  rw [closeBlocks_of_margin_le (by cases opened <;> simp [behindName])]
  have hcolon : token (behindName opened p q k ts (':' :: ' ' :: cs)) ':' (' ' :: cs)
      = valueMark (behindName opened p q k ts (':' :: ' ' :: cs)) (' ' :: cs) := by
    simp [token, startsDocumentMark, startsGap, isGap, isBlank]
  have hbefore : ts.length + 1 + 1 - ts.length = 2 := by omega
  rw [hcolon]
  cases opened <;>
    simp [valueMark, behindName, inEntry, opening, opensBlock, enter, emitAt, emit, inFlow, moveTo, hp, hbefore,
      Position.advance]

theorem plain_phrase {v : List Char} (hv : isPhrase v = true) {rest next : List Char} {broken : Bool}
    (hr : plain false 1 .empty false rest = some ⟨[], next, broken⟩) :
    plain false 1 .empty false (v ++ rest) = some ⟨v, next, broken⟩ := by
  obtain ⟨c, more, rfl, -, hall, hlast⟩ := exists_of_isPhrase hv
  have hinner : ∀ d ∈ c :: more, d = ' ' ∨ IsInner d := fun d hd =>
    (isNameTail_of_isPhraseChar (List.all_eq_true.mp hall d hd)).imp_right isInner_of_isNameTail
  rw [Gap.empty, plain_append hinner hlast, hr]
  simp

/-- A line that starts in the column of the mapping ends what stands on the line above. -/
theorem plain_newline {c : Char} (hc : IsInner c) (cs : List Char) :
    plain false 1 .empty false ('\n' :: c :: cs) = some ⟨[], c :: cs, true⟩ := by
  have hbreak : plain false 1 .empty false ('\n' :: c :: cs)
      = plain false 1 (.breaks (some '\n') [] 0) true (c :: cs) := rfl
  rw [hbreak, plain]
  simp [hc.returns, hc.isBlank, hc.isBreak, leavesPlain, Gap.column?, Gap.isBroken]

/-- A phrase is a plain scalar up to the end of its line. -/
theorem steps_phrase {v : List Char} (hv : isPhrase v = true) {rest next : List Char} {broken : Bool}
    (hr : plain false 1 .empty false rest = some ⟨[], next, broken⟩) :
    Steps (inEntry false q ts (' ' :: (v ++ rest)))
      (inEntry broken ((q.next ' ' (v ++ rest)).advance ((v ++ rest).length - next.length) (v ++ rest))
        (.scalar true (String.ofList v) :: ts) next) := by
  have hplain := plain_phrase hv hr
  obtain ⟨c, more, rfl, hlower, -, -⟩ := exists_of_isPhrase hv
  rw [List.cons_append] at hplain ⊢
  have hhead : isNameHead c = true := by simp [isNameHead, hlower]
  have hat : (inEntry false q ts (' ' :: c :: (more ++ rest))).atToken
      = inEntry false (q.next ' ' (c :: (more ++ rest))) ts (c :: (more ++ rest)) := by
    have hskipped : (inEntry false q ts (' ' :: c :: (more ++ rest))).skipped = (c :: (more ++ rest), false) :=
      skipToToken_of_solid (isSolid_of_isNameHead hhead) _ _ _ _
    have hlength : more.length + rest.length + 1 + 1 - (more.length + rest.length + 1) = 1 := by omega
    rw [atToken_eq, hskipped]
    simp [inEntry, moveTo, hlength, Position.advance]
  have hready : (inEntry false q ts (' ' :: c :: (more ++ rest))).ready?
      = some (inEntry false (q.next ' ' (c :: (more ++ rest))) ts (c :: (more ++ rest))) := by
    rw [ready?, hat, dropStale_of_fresh (by simp [inEntry]) rfl]
  refine ⟨_, c, more ++ rest, hready, rfl, ?_⟩
  rw [closeBlocks_of_margin_le (by simp [inEntry]), token_of_isNameHead hhead]
  simp [plainScalar, noteCandidate, inEntry, inFlow, moveTo, emit, hplain, bind]

/-! ## Lines -/

/-- An entry, up to what follows the end of its line. -/
theorem reaches_entry {e : List Char × List Char} (he : IsBlockEntry e) (hp : p.column = 0)
    {rest next : List Char} {broken : Bool} (hr : plain false 1 .empty false rest = some ⟨[], next, broken⟩) :
    ∃ q, Reaches (atLine opened p ts (entryLine e ++ rest))
        (inEntry broken q ((entryTokens e).reverse ++ (opening opened ++ ts)) next)
      ∧ (rest = '\n' :: next → q.column = 0) := by
  obtain ⟨k, v⟩ := e
  obtain ⟨hk, hshort, hv⟩ := he
  obtain ⟨-, -, -, -, hall⟩ := exists_of_isName hk
  have hbreak : ∀ c ∈ k, isBreak c = false := fun c hc =>
    (isInner_of_isNameTail (List.all_eq_true.mp hall c hc)).isBreak
  have hposition := Position.advance_of_line hbreak p (':' :: ' ' :: (v ++ rest))
  have hname := steps_name opened ts hk hp (v ++ rest)
  rw [hposition, bytes_of_isName hall] at hname
  have hnear : p.index + k.length ≤ p.index + 1024 := Nat.add_le_add_left (hshort.trans (by decide)) _
  have hcolon := steps_colon (p := p) (k := k) opened ts
    (q := ⟨p.index + k.length, p.line, p.column + k.length⟩) rfl hnear hp (v ++ rest)
  have hline : entryLine (k, v) ++ rest = k ++ ':' :: ' ' :: (v ++ rest) := by simp [entryLine]
  rw [hline]
  -- Three steps: the name, the colon, which with the first name opens the mapping, and the phrase.
  refine ⟨_, .head hname (.head hcolon (.single (steps_phrase _ hv hr))), ?_⟩
  rintro rfl
  have hlength : (v ++ '\n' :: next).length - next.length = v.length + 1 := by
    rw [List.length_append, List.length_cons]
    omega
  rw [hlength, Position.advance_lead]
  simp [Position.advance, Position.next, isBreak, returnsBeforeNewline]

/-- The end of the text closes the mapping. -/
theorem ends_inEntry (keyAllowed : Bool) : Ends (inEntry keyAllowed q ts []) (ts.reverse ++ [.blockEnd]) :=
  ⟨1, by simp [run_succ, ready?, atToken, inEntry, skipToToken, dropStale, finish, endDocument, closeBlocks,
    dropCandidate, inFlow, moveTo, Position.advance, bind]⟩

theorem reverse_opened (e : List Char × List Char) (opened : Bool) (ts : List Token) :
    ((entryTokens e).reverse ++ (opening opened ++ ts)).reverse
      = ts.reverse ++ (opening opened ++ entryTokens e) := by
  cases opened <;> simp [opening]

/-- **The lines of a mapping are cut into the tokens of its entries.** -/
theorem ends_blockDocument {es : List (List Char × List Char)} {tail : List Char} (hne : es ≠ [])
    (h : ∀ e ∈ es, IsBlockEntry e) (ht : tail = [] ∨ tail = ['\n']) (hp : p.column = 0) :
    Ends (atLine opened p ts (blockDocument es ++ tail))
      (ts.reverse ++ (opening opened ++ (es.flatMap entryTokens ++ [.blockEnd]))) := by
  induction es generalizing opened p ts with
  | nil => exact absurd rfl hne
  | cons e es ih =>
      obtain ⟨he, hes⟩ := List.forall_mem_cons.mp h
      cases es with
      | nil =>
          -- The last entry, whose value ends with the text. The mapping is closed behind it.
          have hend : ∃ broken, plain false 1 .empty false tail = some ⟨[], [], broken⟩ := by
            rcases ht with rfl | rfl
            · exact ⟨false, rfl⟩
            · exact ⟨true, rfl⟩
          obtain ⟨broken, hend⟩ := hend
          obtain ⟨q, hreach, -⟩ := reaches_entry opened ts he hp hend
          refine hreach.ends_iff.mpr ?_
          have hdone := ends_inEntry (q := q) ((entryTokens e).reverse ++ (opening opened ++ ts)) broken
          rw [reverse_opened] at hdone
          simpa using hdone
      | cons f es =>
          -- The line end behind a value is no part of it, and brings the reader to the first column of the next
          -- entry.
          obtain ⟨c, cs, hcs, hc, -⟩ := exists_blockDocument (List.cons_ne_nil f es) hes tail
          have hnext : plain false 1 .empty false ('\n' :: (blockDocument (f :: es) ++ tail))
              = some ⟨[], blockDocument (f :: es) ++ tail, true⟩ := by
            rw [hcs]
            exact plain_newline (isInner_of_isNameTail (by simp [isNameTail, hc])) cs
          obtain ⟨q, hreach, hcolumn⟩ := reaches_entry opened ts he hp hnext
          have hmore := ih true ((entryTokens e).reverse ++ (opening opened ++ ts)) (List.cons_ne_nil f es) hes
            (hcolumn rfl)
          have hline : blockDocument (e :: f :: es) ++ tail
              = entryLine e ++ '\n' :: (blockDocument (f :: es) ++ tail) := by
            simp only [blockDocument, List.map_cons, join_cons_cons, List.append_assoc, List.cons_append]
          rw [hline]
          refine hreach.ends_iff.mpr ?_
          rw [reverse_opened] at hmore
          show Ends (atLine true q _ _) _
          simpa [opening] using hmore

end Lexer

theorem isAllowed_blockDocument {es : List (List Char × List Char)} {tail : List Char}
    (h : ∀ e ∈ es, IsBlockEntry e) (ht : tail = [] ∨ tail = ['\n']) :
    (blockDocument es ++ tail).all isAllowed = true := by
  rw [List.all_append, Bool.and_eq_true, List.all_eq_true]
  refine ⟨fun c hc => ?_, by rcases ht with rfl | rfl <;> decide⟩
  rcases mem_join hc with rfl | ⟨l, hl, hc⟩
  · decide
  · obtain ⟨e, he, rfl⟩ := List.mem_map.mp hl
    obtain ⟨-, -, -, -, hname⟩ := exists_of_isName (h e he).name
    obtain ⟨-, -, -, -, hphrase, -⟩ := exists_of_isPhrase (h e he).phrase
    simp only [entryLine, List.mem_append, List.mem_cons] at hc
    rcases hc with hc | rfl | rfl | hc
    · exact isAllowed_of_isNameTail (List.all_eq_true.mp hname c hc)
    · decide
    · decide
    · rcases isNameTail_of_isPhraseChar (List.all_eq_true.mp hphrase c hc) with rfl | hc
      · decide
      · exact isAllowed_of_isNameTail hc

/-- **A block mapping is cut into the tokens of its entries.** -/
theorem tokens?_blockDocument {es : List (List Char × List Char)} {tail : List Char} (hne : es ≠ [])
    (h : ∀ e ∈ es, IsBlockEntry e) (ht : tail = [] ∨ tail = ['\n']) :
    tokens? (blockDocument es ++ tail)
      = some (.blockMapping :: (es.flatMap entryTokens ++ [.blockEnd])) := by
  have hends : Lexer.Ends (.atLine false .start [] (blockDocument es ++ tail)) _ :=
    Lexer.ends_blockDocument false [] hne h ht rfl
  exact Lexer.tokens?_eq_some_iff.mpr ⟨isAllowed_blockDocument h ht, hends⟩

end Stencil.Yaml
