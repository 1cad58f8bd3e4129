import Stencil.Proofs.Yaml.Frame

/-!
# Tokens in front of fillers

The token that is cut off a text is the one that is cut off the text with fillers behind it (`Follows`): where
the token ends inside the text, the places behind it are the same; where it runs to the end, they differ in
nothing but the fillers that are left, which hold no tab, the position, and whether a key may start. The one
token that may differ is a block scalar that runs to the end and does not drop the fillers
(`Lexer.endingBlock?`).

Main statement: `Lexer.follows_token`.
-/

namespace Stencil.Yaml.Lexer

open Stencil.Text

variable {f : Frame} {s : Lexer} {cs : List Char}

/-- The place behind a token. -/
def cut (s : Lexer) (token : Token) (keyAllowed : Bool) (rest : List Char) : Lexer :=
  { (s.moveTo rest).emit token with keyAllowed := keyAllowed }

/-- How cutting off a token goes on a text with fillers behind it. -/
inductive Follows (f : Frame) : Option Lexer → Option Lexer → Prop where
  | refused : Follows f none none
  | inside (u : Lexer) : Follows f (some u) (some (u.within f))
  | atEnd {u : Lexer} {rest : List Char} (hu : u.rest = []) (hr : rest <:+ f.behind) (htab : '\t' ∉ rest)
      (p : Position) (k : Bool) :
      Follows f (some u) (some { u.within f with rest := rest, position := p, keyAllowed := k })

theorem follows_of_eq {found found' : Option Lexer} (h : found' = found.map (within f)) :
    Follows f found found' := by
  subst h
  cases found with
  | none => exact .refused
  | some u => exact .inside u

theorem follows_ite {p : Prop} [Decidable p] {a b a' b' : Option Lexer} (ha : p → Follows f a a')
    (hb : ¬ p → Follows f b b') : Follows f (if p then a else b) (if p then a' else b') := by
  split
  · exact ha ‹p›
  · exact hb ‹¬ p›

theorem follows_bind {first first' : Option Lexer} (h : first' = first.map (within f))
    {next next' : Lexer → Option Lexer}
    (hnext : ∀ u, first = some u → Follows f (next u) (next' (u.within f))) :
    Follows f (first.bind next) (first'.bind next') := by
  subst h
  cases first with
  | none => exact .refused
  | some u => exact hnext u rfl

/-- A token goes on as what is read for it. -/
theorem follows_cut {α : Type} {alike : α → α → Prop} {found found' : Option (α × List Char)}
    (h : Goes f.behind alike found found') (hs : EndsSolid s.rest) (token : α → Token) (keyAllowed : α → Bool)
    (ht : ∀ a b, alike a b → token a = token b) :
    Follows f (found.map fun p => s.cut (token p.1) (keyAllowed p.1) p.2)
      (found'.map fun p => (s.within f).cut (token p.1) (keyAllowed p.1) p.2) := by
  cases h with
  | refused => exact .refused
  | inside a rest =>
      refine follows_of_eq ?_
      simp only [Option.map_some, cut, moveTo_within hs]
      rfl
  | @atEnd a b rest hab hr htab =>
      have he : (s.within f).cut (token b) (keyAllowed b) rest = { (s.cut (token a) (keyAllowed a) []).within f with
          rest := rest
          position := ((s.within f).moveTo rest).position
          keyAllowed := keyAllowed b } := by
        rw [ht a b hab]
        rfl
      rw [Option.map_some, Option.map_some, he]
      exact .atEnd rfl hr htab _ _

/-! ## Tokens of one character -/

theorem rest_of_noteCandidate {u : Lexer} (h : s.noteCandidate = some u) :
    u.rest = s.rest ∧ u.margin = s.margin ∧ u.inFlow = s.inFlow := by
  obtain ⟨candidate, rfl⟩ := exists_of_noteCandidate h
  exact ⟨rfl, rfl, rfl⟩

theorem rest_of_dropCandidate {u : Lexer} (h : s.dropCandidate = some u) :
    u.rest = s.rest ∧ u.margin = s.margin := by
  obtain rfl := eq_of_dropCandidate h
  exact ⟨rfl, rfl⟩

/-- Closing block collections changes the margins and the tokens only. -/
theorem exists_of_closeBlocks (s : Lexer) (margin : Nat) : ∃ inner outer tokens count,
    s.closeBlocks margin = { s with margin := inner, outerMargins := outer, tokens := tokens, count := count } := by
  unfold closeBlocks
  split
  · exact ⟨_, _, _, _, rfl⟩
  · simp only
    split <;> exact ⟨_, _, _, _, rfl⟩

theorem rest_closeBlocks (s : Lexer) (margin : Nat) : (s.closeBlocks margin).rest = s.rest := by
  obtain ⟨_, _, _, _, h⟩ := exists_of_closeBlocks s margin
  rw [h]

/-- Opening one changes no more than closing does. -/
theorem exists_of_openBlock (s : Lexer) (opening : Token) : ∃ inner outer tokens count,
    s.openBlock opening = { s with margin := inner, outerMargins := outer, tokens := tokens, count := count } := by
  unfold openBlock
  split <;> exact ⟨_, _, _, _, rfl⟩

theorem rest_openBlock (s : Lexer) (opening : Token) : (s.openBlock opening).rest = s.rest := by
  obtain ⟨_, _, _, _, h⟩ := exists_of_openBlock s opening
  rw [h]

theorem rest_of_endDocument {u : Lexer} (h : s.endDocument = some u) : u.rest = s.rest := by
  obtain ⟨v, hv, h⟩ := Option.bind_eq_some_iff.mp h
  cases h
  rw [(rest_of_dropCandidate hv).1, rest_closeBlocks]

/-- The place behind the innermost brackets. -/
def closeBracket (s : Lexer) : Lexer :=
  match s.outerCandidates with
  | [] => s
  | c :: outer => { s with candidate := c, outerCandidates := outer }

theorem closeFlow_eq (s : Lexer) (token : Token) (cs : List Char) :
    s.closeFlow token cs = s.dropCandidate.bind fun s =>
      some { (s.closeBracket.moveTo cs).emit token with keyAllowed := false } := rfl

theorem closeBracket_within (f : Frame) (s : Lexer) : (s.within f).closeBracket = s.closeBracket.within f := by
  obtain ⟨_, _, _, _, _, _, outerCandidates, _, _⟩ := s
  cases outerCandidates <;> rfl

theorem rest_closeBracket (s : Lexer) : s.closeBracket.rest = s.rest := by
  unfold closeBracket
  split <;> rfl

/-- The key that a colon makes of a possible one. -/
def markKey (s : Lexer) (c : Candidate) : Lexer :=
  { s.emitAt c.before .key with candidate := none, keyAllowed := false }

/-- The key with the start of the mapping that it opens, if it opens one. -/
def openKey (s : Lexer) (c : Candidate) : Lexer :=
  if (s.markKey c).opensBlock c.position.column then
    ((s.markKey c).enter c.position.column).emitAt c.before .blockMapping
  else s.markKey c

theorem valueMark_of_candidate {c : Candidate} (h : s.candidate = some c) (cs : List Char) :
    s.valueMark cs = some (((s.openKey c).moveTo cs).emit .value) := by
  rw [valueMark, h]
  rfl

theorem openKey_within (f : Frame) (s : Lexer) (c : Candidate) :
    (s.within f).openKey (f.candidate c) = (s.openKey c).within f := by
  have hmark : (s.within f).markKey (f.candidate c) = (s.markKey c).within f := rfl
  unfold openKey
  rw [hmark, opensBlock_within]
  show (if (s.markKey c).opensBlock c.position.column then _ else _) = _
  split <;> rfl

/-- A key that is opened leaves the place in the text and the brackets as they are. -/
theorem of_openKey (s : Lexer) (c : Candidate) :
    (s.openKey c).rest = s.rest ∧ (s.openKey c).position = s.position
      ∧ (s.openKey c).outerCandidates = s.outerCandidates := by
  unfold openKey
  split <;> exact ⟨rfl, rfl, rfl⟩

theorem rest_openKey (s : Lexer) (c : Candidate) : (s.openKey c).rest = s.rest := (of_openKey s c).1

section OneCharacter

variable (hs : EndsSolid s.rest)
include hs

theorem follows_openFlow (token : Token) (cs : List Char) :
    Follows f (s.openFlow token cs) ((s.within f).openFlow token (cs ++ f.behind)) := by
  refine follows_bind (noteCandidate_within f s) fun u hu => follows_of_eq ?_
  rw [moveTo_within ((rest_of_noteCandidate hu).1 ▸ hs)]
  rfl

theorem follows_closeFlow (token : Token) (cs : List Char) :
    Follows f (s.closeFlow token cs) ((s.within f).closeFlow token (cs ++ f.behind)) := by
  rw [closeFlow_eq, closeFlow_eq]
  refine follows_bind (dropCandidate_within f s) fun u hu => follows_of_eq ?_
  rw [closeBracket_within, moveTo_within (by rw [rest_closeBracket, (rest_of_dropCandidate hu).1]; exact hs)]
  rfl

theorem follows_flowEntry (cs : List Char) :
    Follows f (s.flowEntry cs) ((s.within f).flowEntry (cs ++ f.behind)) := by
  refine follows_bind (dropCandidate_within f s) fun u hu => follows_of_eq ?_
  rw [moveTo_within ((rest_of_dropCandidate hu).1 ▸ hs)]
  rfl

theorem follows_blockEntry (cs : List Char) :
    Follows f (s.blockEntry cs) ((s.within f).blockEntry (cs ++ f.behind)) := by
  unfold blockEntry
  rw [inFlow_within, openBlock_within]
  refine follows_ite (fun _ => .refused) fun _ => ?_
  refine follows_bind (dropCandidate_within f _) fun u hu => follows_of_eq ?_
  rw [moveTo_within (by rw [(rest_of_dropCandidate hu).1, rest_openBlock]; exact hs)]
  rfl

theorem follows_keyMark (cs : List Char) :
    Follows f (s.keyMark cs) ((s.within f).keyMark (cs ++ f.behind)) := by
  unfold keyMark
  rw [inFlow_within, openBlock_within]
  refine follows_ite (fun _ => .refused) fun _ => ?_
  refine follows_bind (dropCandidate_within f _) fun u hu => follows_of_eq ?_
  rw [moveTo_within (by rw [(rest_of_dropCandidate hu).1, rest_openBlock]; exact hs), inFlow_within]
  rfl

theorem follows_valueMark (cs : List Char) :
    Follows f (s.valueMark cs) ((s.within f).valueMark (cs ++ f.behind)) := by
  cases hc : s.candidate with
  | some c =>
      have hc' : (s.within f).candidate = some (f.candidate c) := by
        show s.candidate.map f.candidate = _
        rw [hc]
        rfl
      rw [valueMark_of_candidate hc, valueMark_of_candidate hc', openKey_within,
        moveTo_within (rest_openKey s c ▸ hs)]
      exact .inside _
  | none =>
      have hc' : (s.within f).candidate = none := by
        show s.candidate.map f.candidate = _
        rw [hc]
        rfl
      unfold valueMark
      rw [hc, hc']
      simp only
      rw [inFlow_within, openBlock_within]
      refine follows_ite (fun _ => .refused) fun _ => follows_of_eq ?_
      rw [moveTo_within (rest_openBlock s .blockMapping ▸ hs), inFlow_within]
      rfl

theorem follows_documentMark (token : Token) (h : startsDocumentMark s.rest = true) :
    Follows f (s.documentMark token) ((s.within f).documentMark token) := by
  unfold documentMark
  refine follows_bind (endDocument_within f s) fun u hu => follows_of_eq ?_
  have hrest := rest_of_endDocument hu
  have hdrop : (u.within f).rest.drop 3 = u.rest.drop 3 ++ f.behind := by
    show (u.rest ++ f.behind).drop 3 = _
    rw [List.drop_append_of_le_length]
    rw [hrest]
    exact length_of_startsDocumentMark h
  rw [hdrop, moveTo_within (hrest ▸ hs)]
  rfl

end OneCharacter

/-! ## Nodes -/

theorem node_eq (s : Lexer) (read : Option (Token × List Char)) :
    s.node read = s.noteCandidate.bind fun s => read.map fun p => s.cut p.1 false p.2 := by
  cases read <;> rfl

theorem plainScalar_eq (s : Lexer) :
    s.plainScalar = s.noteCandidate.bind fun s =>
      ((plain s.inFlow s.margin .empty false s.rest).map Plain.found).map fun p =>
        s.cut (.scalar true (String.ofList p.1.1)) p.1.2 p.2 := by
  unfold plainScalar
  congr 1
  funext u
  cases plain u.inFlow u.margin .empty false u.rest <;> rfl

theorem blockScalar_eq (s : Lexer) (folded : Bool) (cs : List Char) :
    s.blockScalar folded cs = s.dropCandidate.bind fun s =>
      (Yaml.blockScalar folded s.margin cs).map fun p => s.cut (.scalar false (String.ofList p.1)) true p.2 := by
  unfold blockScalar
  congr 1
  funext u
  cases Yaml.blockScalar folded u.margin cs <;> rfl

/-- A directive with its line. -/
def directiveLine? (cs : List Char) : Option (Token × List Char) :=
  (directive? cs).bind fun (token, rest) => (lineEnd? rest).map fun rest => (token, rest)

theorem directive_eq (s : Lexer) (cs : List Char) :
    s.directive cs = s.endDocument.bind fun s =>
      (directiveLine? cs).map fun p => s.cut p.1 s.keyAllowed p.2 := by
  unfold directive directiveLine?
  congr 1
  funext u
  rcases directive? cs with _ | ⟨token, rest⟩
  · rfl
  · simp only [bind, Option.bind_some]
    cases lineEnd? rest <;> rfl

section Nodes

variable (ht : AllFiller f.behind) (htab : TabsFirst f.behind) (hs : EndsSolid s.rest)
include hs

theorem follows_node {read read' : Option (Token × List Char)} (hread : read' = read.map (extend f.behind)) :
    Follows f (s.node read) ((s.within f).node read') := by
  rw [node_eq, node_eq, hread]
  refine follows_bind (noteCandidate_within f s) fun u hu => ?_
  have hgoes : Goes f.behind Eq read (read.map (extend f.behind)) := goes_extend read
  exact follows_cut hgoes ((rest_of_noteCandidate hu).1 ▸ hs) id (fun _ => false) fun _ _ => congrArg id

include ht htab

theorem follows_plainScalar : Follows f s.plainScalar (s.within f).plainScalar := by
  rw [plainScalar_eq, plainScalar_eq]
  refine follows_bind (noteCandidate_within f s) fun u hu => ?_
  have hu : EndsSolid u.rest := (rest_of_noteCandidate hu).1 ▸ hs
  rw [inFlow_within]
  exact follows_cut (goes_plain ht htab hu u.inFlow u.margin (fun _ => rfl) false) hu
    (fun a => .scalar true (String.ofList a.1)) (fun a => a.2) fun a b hab => by rw [hab]

theorem follows_directive (hcs : EndsSolid cs) :
    Follows f (s.directive cs) ((s.within f).directive (cs ++ f.behind)) := by
  rw [directive_eq, directive_eq]
  refine follows_bind (endDocument_within f s) fun u hu => ?_
  have hline : Goes f.behind Eq (directiveLine? cs) (directiveLine? (cs ++ f.behind)) := by
    unfold directiveLine?
    rw [directive?_append ht hcs]
    cases hd : directive? cs with
    | none => exact .refused
    | some found =>
        obtain ⟨token, rest⟩ := found
        have hend := goes_lineEnd? ht htab (hcs.of_suffix (leaves_directive? cs hd))
        have hmap := hend.map (fun _ => token) fun _ _ _ => (rfl : token = token)
        rwa [Option.map_map, Option.map_map] at hmap
  exact follows_cut hline (rest_of_endDocument hu ▸ hs) id (fun _ => u.keyAllowed) fun _ _ => congrArg id

theorem follows_blockScalar (hcs : EndsSolid cs) (folded : Bool)
    (hd : ∀ header rest, blockSigns? cs = some (header, rest) →
      (∃ text, Yaml.blockScalar folded s.margin cs = some (text, [])) → header.chomping.Drops f.behind) :
    Follows f (s.blockScalar folded cs) ((s.within f).blockScalar folded (cs ++ f.behind)) := by
  rw [blockScalar_eq, blockScalar_eq]
  refine follows_bind (dropCandidate_within f s) fun u hu => ?_
  obtain ⟨hrest, hmargin⟩ := rest_of_dropCandidate hu
  rw [← hmargin] at hd
  exact follows_cut (goes_blockScalar ht htab hcs folded u.margin hd) (hrest ▸ hs)
    (fun a => .scalar false (String.ofList a)) (fun _ => true) fun a b hab => by rw [hab]

end Nodes

/-! ## One token -/

/-- The chomping of the block scalar that starts here, if the text ends in it. -/
def endingBlock? (s : Lexer) (c : Char) (cs : List Char) : Option Chomping :=
  if (c = '|' ∨ c = '>') ∧ s.inFlow = false then
    match Yaml.blockScalar (c == '>') s.margin cs, blockSigns? cs with
    | some (_, []), some (header, _) => some header.chomping
    | _, _ => none
  else none

theorem startsPlain_append {t : List Char} (ht : AllFiller t) {c : Char} (hc : c = '-' → cs ≠ []) (flow : Bool) :
    startsPlain flow c (cs ++ t) = startsPlain flow c cs := by
  unfold startsPlain
  rw [startsGap_append ht]
  cases cs with
  | cons d cs => rfl
  | nil =>
      have hminus : (c == '-') = false := by
        rw [beq_eq_false_iff_ne]
        exact fun he => hc he rfl
      simp only [hminus, Bool.false_and]

/-- **A token is the same with fillers behind the text**, unless it is a block scalar that runs to the end of the
text and does not drop them. -/
theorem follows_token {c : Char} (ht : AllFiller f.behind) (htab : TabsFirst f.behind) (hs : EndsSolid s.rest)
    (hr : s.rest = c :: cs)
    (hd : ∀ chomping, s.endingBlock? c cs = some chomping → chomping.Drops f.behind) :
    Follows f (s.token c cs) ((s.within f).token c (cs ++ f.behind)) := by
  have hcs : EndsSolid cs := EndsSolid.of_cons (hr ▸ hs)
  have hblock : ∀ folded, (c = '|' ∨ c = '>') → (c == '>') = folded → s.inFlow = false →
      ∀ header rest, blockSigns? cs = some (header, rest) →
        (∃ text, Yaml.blockScalar folded s.margin cs = some (text, [])) → header.chomping.Drops f.behind := by
    rintro folded hc rfl hflow header rest hsigns ⟨text, hend⟩
    refine hd header.chomping ?_
    rw [endingBlock?, if_pos ⟨hc, hflow⟩, hend, hsigns]
  -- Which kind of token starts here is asked of both texts in the same order, and answered alike each time.
  unfold token
  simp only
  rw [inFlow_within, ← List.cons_append, startsDocumentMark_append ht, startsGap_append ht]
  refine follows_ite (fun _ => follows_directive ht htab hs hcs) fun _ => ?_
  refine follows_ite (fun h => follows_documentMark hs _ (hr ▸ h.2)) fun _ => ?_
  refine follows_ite (fun _ => follows_openFlow hs _ cs) fun _ => ?_
  refine follows_ite (fun _ => follows_openFlow hs _ cs) fun _ => ?_
  refine follows_ite (fun _ => follows_closeFlow hs _ cs) fun _ => ?_
  refine follows_ite (fun _ => follows_closeFlow hs _ cs) fun _ => ?_
  refine follows_ite (fun _ => follows_flowEntry hs cs) fun _ => ?_
  refine follows_ite (fun _ => follows_blockEntry hs cs) fun hminus => ?_
  refine follows_ite (fun _ => follows_keyMark hs cs) fun _ => ?_
  refine follows_ite (fun _ => follows_valueMark hs cs) fun _ => ?_
  refine follows_ite (fun _ => follows_node hs (by rw [anchorName?_append ht, Option.map_map, Option.map_map]; rfl))
    fun _ => ?_
  refine follows_ite (fun _ => follows_node hs (by rw [anchorName?_append ht, Option.map_map, Option.map_map]; rfl))
    fun _ => ?_
  refine follows_ite (fun _ => follows_node hs (by rw [tag?_append ht])) fun _ => ?_
  refine follows_ite (fun h => follows_blockScalar ht htab hs hcs false ?_) fun _ => ?_
  · exact hblock false (.inl h.1) (by rw [h.1]; rfl) (by simpa using h.2)
  refine follows_ite (fun h => follows_blockScalar ht htab hs hcs true ?_) fun _ => ?_
  · exact hblock true (.inr h.1) (by rw [h.1]; rfl) (by simpa using h.2)
  refine follows_ite (fun _ => follows_node hs
    (by rw [singleQuoted_append ht hcs, Option.map_map, Option.map_map]; rfl)) fun _ => ?_
  refine follows_ite (fun _ => follows_node hs
    (by rw [doubleQuoted_append ht hcs, Option.map_map, Option.map_map]; rfl)) fun _ => ?_
  -- A minus sign that the text ends with would start a word with nothing behind it. It was an entry already.
  rw [startsPlain_append ht fun hc hnil => hminus ⟨hc, by rw [hnil]; rfl⟩]
  exact follows_ite (fun _ => follows_plainScalar ht htab hs) fun _ => .refused

end Stencil.Yaml.Lexer
