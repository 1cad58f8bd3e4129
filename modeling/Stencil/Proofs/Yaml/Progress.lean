import Stencil.Proofs.Yaml.Reading
import Stencil.Proofs.Yaml.Behind.Lexer

/-!
# What a token takes and what it leaves open

Every token takes characters from the front of the text, and a lexer has as many brackets open as its tokens
have opened and not closed (`Lexer.Balanced`). Tokens that are put in front of others after the fact are no
brackets.

Main statement: `Lexer.advances_token`.
-/

namespace Stencil.Yaml

theorem bracketsAfter_append (n : Nat) (ts us : List Token) :
    bracketsAfter n (ts ++ us) = bracketsAfter (bracketsAfter n ts) us := List.foldl_append

/-- Whether what is seen of some tokens is seen without a token among them as well. -/
def Overlooks {β : Type} (f : List Token → β) (t : Token) : Prop := ∀ ts us, f (ts ++ t :: us) = f (ts ++ us)

theorem Overlooks.replicate {β : Type} {f : List Token → β} {t : Token} (h : Overlooks f t) (ts : List Token)
    (k : Nat) : f (ts ++ List.replicate k t) = f ts := by
  induction k with
  | zero => rw [List.replicate_zero, List.append_nil]
  | succ k ih => rw [List.replicate_succ, h, ih]

/-- Whether a token is no bracket. -/
def Token.IsNeutral (t : Token) : Prop := ∀ n, t.bracketsAfter n = n

theorem overlooks_of_isNeutral {t : Token} (h : t.IsNeutral) (n : Nat) : Overlooks (bracketsAfter n) t := by
  intro ts us
  rw [bracketsAfter_append, bracketsAfter_append, bracketsAfter_cons, h]

/-! ## Which tokens are read -/

section Read

variable {P : Token → Prop} {t : Token} {cs rest : List Char}

theorem of_map {α : Type} {found : Option (α × List Char)} {f : α × List Char → Token × List Char}
    (hf : ∀ p, P (f p).1) (t : Token) (rest : List Char) (h : found.map f = some (t, rest)) : P t := by
  obtain ⟨p, -, hp⟩ := Option.map_eq_some_iff.mp h
  have hn := hf p
  rwa [hp] at hn

theorem of_shorthand? (hP : ∀ handle suffix, P (.tag handle suffix)) (h : shorthand? cs = some (t, rest)) :
    P t := by
  unfold shorthand? at h
  split at h
  · contradiction
  · exact of_map (fun _ => hP _ _) t rest h
  · obtain ⟨p, -, hp⟩ := Option.map_eq_some_iff.mp h
    simp only at hp
    split at hp <;> cases hp <;> exact hP _ _

theorem of_verbatim? (hP : ∀ handle suffix, P (.tag handle suffix)) (h : verbatim? cs = some (t, rest)) :
    P t := by
  unfold verbatim? at h
  split at h <;> cases h
  exact hP _ _

theorem of_ended? {flow : Bool} {found : Option (Token × List Char)} (h : ended? flow found = some (t, rest)) :
    found = some (t, rest) := by
  obtain ⟨⟨token, mid⟩, hfound, h⟩ := Option.bind_eq_some_iff.mp h
  simp only at h
  split at h
  · cases h
    exact hfound
  · contradiction

/-- What is read as a tag is a tag. -/
theorem of_tag? {flow : Bool} (hP : ∀ handle suffix, P (.tag handle suffix)) (h : tag? flow cs = some (t, rest)) :
    P t := by
  by_cases hv : ∃ more, cs = '!' :: '<' :: more
  · obtain ⟨more, rfl⟩ := hv
    rw [tag?_verbatim] at h
    exact of_verbatim? hP (of_ended? h)
  · rw [tag?_shorthand flow fun more he => hv ⟨more, he⟩] at h
    exact of_shorthand? hP (of_ended? h)

/-- What is read as a directive is a version or a handle. -/
theorem of_directive? (hversion : ∀ major minor, P (.version major minor))
    (hhandle : ∀ handle expansion, P (.tagHandle handle expansion)) (h : directive? cs = some (t, rest)) : P t := by
  have hversion : ∀ {cs}, versionValue? cs = some (t, rest) → P t := by
    intro cs h
    obtain ⟨⟨major, mid⟩, -, h⟩ := Option.bind_eq_some_iff.mp h
    simp only at h
    split at h
    · obtain ⟨p, -, h⟩ := Option.bind_eq_some_iff.mp h
      cases h
      exact hversion _ _
    · contradiction
  have htag : ∀ {cs}, tagValue? cs = some (t, rest) → P t := by
    intro cs h
    obtain ⟨⟨handle, closed, mid⟩, -, h⟩ := Option.bind_eq_some_iff.mp h
    simp only at h
    split at h
    · split at h
      · contradiction
      · split at h
        · obtain ⟨p, -, h⟩ := Option.bind_eq_some_iff.mp h
          split at h <;> cases h
          exact hhandle _ _
        · contradiction
    · contradiction
  unfold directive? at h
  generalize spanName cs = found at h
  simp only at h
  split at h
  · split at h
    · exact hversion h
    · split at h
      · exact htag h
      · contradiction
  · contradiction

end Read

namespace Lexer

variable {s u : Lexer} {c : Char} {cs rest : List Char} {t : Token} {k : Nat}

/-! ### What is seen of the tokens so far -/

section Seen

variable {β : Type} {f : List Token → β}

theorem seen_emit (h : Overlooks f t) : f (s.emit t).tokens.reverse = f s.tokens.reverse := by
  show f (t :: s.tokens).reverse = _
  rw [List.reverse_cons, h, List.append_nil]

theorem seen_emitAt (h : Overlooks f t) (n : Nat) : f (s.emitAt n t).tokens.reverse = f s.tokens.reverse := by
  show f (s.tokens.take (s.count - n) ++ t :: s.tokens.drop (s.count - n)).reverse = _
  rw [List.reverse_append, List.reverse_cons, List.append_assoc, List.singleton_append, h,
    ← List.reverse_append, List.take_append_drop]

theorem seen_closeBlocks (h : Overlooks f .blockEnd) (margin : Nat) :
    f (s.closeBlocks margin).tokens.reverse = f s.tokens.reverse := by
  unfold Lexer.closeBlocks
  split
  · rfl
  · simp only
    split
    · rfl
    · rw [List.reverse_append, List.reverse_replicate, h.replicate]

theorem seen_openBlock (h : Overlooks f t) : f (s.openBlock t).tokens.reverse = f s.tokens.reverse := by
  unfold Lexer.openBlock
  split
  · exact seen_emit (s := s.enter s.position.column) h
  · rfl

theorem seen_openKey (hk : Overlooks f .key) (hm : Overlooks f .blockMapping) (c : Candidate) :
    f (s.openKey c).tokens.reverse = f s.tokens.reverse := by
  have hmark : f (s.markKey c).tokens.reverse = f s.tokens.reverse := seen_emitAt hk c.before
  unfold Lexer.openKey
  split
  · exact (seen_emitAt (s := (s.markKey c).enter c.position.column) hm c.before).trans hmark
  · exact hmark

theorem seen_of_dropCandidate (hu : s.dropCandidate = some u) : f u.tokens.reverse = f s.tokens.reverse := by
  obtain rfl := eq_of_dropCandidate hu
  rfl

theorem seen_of_endDocument (h : Overlooks f .blockEnd) (hu : s.endDocument = some u) :
    f u.tokens.reverse = f s.tokens.reverse := by
  obtain ⟨v, hv, hu⟩ := Option.bind_eq_some_iff.mp hu
  cases hu
  exact (seen_of_dropCandidate hv).trans (seen_closeBlocks h 0)

end Seen

/-! ### Brackets -/

/-- Whether the tokens so far leave as many brackets open as the lexer has open. -/
def Balanced (s : Lexer) : Prop := bracketsAfter 0 s.tokens.reverse = s.outerCandidates.length

theorem Balanced.emit (h : s.Balanced) (ht : t.IsNeutral) : (s.emit t).Balanced :=
  (seen_emit (overlooks_of_isNeutral ht 0)).trans h

theorem outerCandidates_closeBlocks (s : Lexer) (margin : Nat) :
    (s.closeBlocks margin).outerCandidates = s.outerCandidates := by
  obtain ⟨_, _, _, _, h⟩ := exists_of_closeBlocks s margin
  rw [h]

theorem Balanced.closeBlocks (h : s.Balanced) (margin : Nat) : (s.closeBlocks margin).Balanced := by
  rw [Balanced, outerCandidates_closeBlocks]
  exact (seen_closeBlocks (overlooks_of_isNeutral (fun _ => rfl) 0) margin).trans h

theorem Balanced.openBlock (h : s.Balanced) (ht : t.IsNeutral) : (s.openBlock t).Balanced := by
  have hbrackets : (s.openBlock t).outerCandidates = s.outerCandidates := by
    obtain ⟨_, _, _, _, h⟩ := exists_of_openBlock s t
    rw [h]
  rw [Balanced, hbrackets]
  exact (seen_openBlock (overlooks_of_isNeutral ht 0)).trans h

theorem Balanced.openKey (h : s.Balanced) (c : Candidate) : (s.openKey c).Balanced := by
  rw [Balanced, (of_openKey s c).2.2]
  exact (seen_openKey (overlooks_of_isNeutral (fun _ => rfl) 0) (overlooks_of_isNeutral (fun _ => rfl) 0) c).trans h

theorem Balanced.of_dropCandidate (h : s.Balanced) (hu : s.dropCandidate = some u) : u.Balanced := by
  obtain rfl := eq_of_dropCandidate hu
  exact h

theorem Balanced.of_endDocument (h : s.Balanced) (hu : s.endDocument = some u) : u.Balanced := by
  obtain ⟨v, hv, hu⟩ := Option.bind_eq_some_iff.mp hu
  have hv : v.Balanced := (h.closeBlocks 0).of_dropCandidate hv
  cases hu
  exact hv

theorem Balanced.within (h : s.Balanced) (f : Frame) : (s.within f).Balanced := by
  show bracketsAfter 0 s.tokens.reverse = (s.outerCandidates.map (Option.map f.candidate)).length
  rw [List.length_map]
  exact h

theorem Balanced.of_ready? (h : s.Balanced) (hu : s.ready? = some u) : u.Balanced := by
  have hr := ready_of_ready? hu
  show bracketsAfter 0 u.tokens.reverse = _
  rw [hr.tokens, hr.brackets]
  exact h

/-- Whether a token is cut off the front of a text, and leaves the brackets balanced. -/
def Advances (s : Lexer) (cs : List Char) (found : Option Lexer) : Prop :=
  ∀ ⦃u⦄, found = some u → u.rest <:+ cs ∧ (s.Balanced → u.Balanced)

theorem advances_none : Advances s cs none := fun _ h => by cases h

theorem advances_ite {p : Prop} [Decidable p] {a b : Option Lexer} (ha : p → Advances s cs a)
    (hb : ¬ p → Advances s cs b) : Advances s cs (if p then a else b) := by
  split
  · exact ha ‹p›
  · exact hb ‹¬ p›

theorem Emits.advances (h : Emits s t rest k u) (hr : rest <:+ cs)
    (hk : t.bracketsAfter s.outerCandidates.length = k) : u.rest <:+ cs ∧ (s.Balanced → u.Balanced) := by
  refine ⟨h.rest ▸ hr, fun hs => ?_⟩
  show bracketsAfter 0 u.tokens.reverse = _
  rw [h.tokens, h.brackets, List.reverse_cons, bracketsAfter_append, hs, ← hk]
  rfl

theorem advances_openFlow (ht : ∀ n, t.bracketsAfter n = n + 1) (cs : List Char) :
    Advances s cs (s.openFlow t cs) := fun _ h => (emits_of_openFlow h).advances (List.suffix_refl cs) (ht _)

theorem advances_closeFlow (ht : ∀ n, t.bracketsAfter n = n - 1) (cs : List Char) :
    Advances s cs (s.closeFlow t cs) := fun _ h => (emits_of_closeFlow h).advances (List.suffix_refl cs) (ht _)

theorem advances_flowEntry (cs : List Char) : Advances s cs (s.flowEntry cs) :=
  fun _ h => (emits_of_flowEntry h).advances (List.suffix_refl cs) rfl

theorem advances_blockEntry (cs : List Char) : Advances s cs (s.blockEntry cs) := by
  refine advances_ite (fun _ => advances_none) fun _ u h => ?_
  obtain ⟨v, hv, h⟩ := Option.bind_eq_some_iff.mp h
  cases h
  exact ⟨List.suffix_refl cs, fun hs =>
    ((hs.openBlock fun _ => rfl).of_dropCandidate hv).emit (t := .blockEntry) fun _ => rfl⟩

theorem advances_keyMark (cs : List Char) : Advances s cs (s.keyMark cs) := by
  refine advances_ite (fun _ => advances_none) fun _ u h => ?_
  obtain ⟨v, hv, h⟩ := Option.bind_eq_some_iff.mp h
  cases h
  exact ⟨List.suffix_refl cs, fun hs =>
    ((hs.openBlock fun _ => rfl).of_dropCandidate hv).emit (t := .key) fun _ => rfl⟩

theorem advances_valueMark (cs : List Char) : Advances s cs (s.valueMark cs) := by
  cases hc : s.candidate with
  | some c =>
      rw [valueMark_of_candidate hc]
      rintro u ⟨⟩
      exact ⟨List.suffix_refl cs, fun hs => (hs.openKey c).emit (t := .value) fun _ => rfl⟩
  | none =>
      unfold valueMark
      rw [hc]
      refine advances_ite (fun _ => advances_none) fun _ u h => ?_
      cases h
      exact ⟨List.suffix_refl cs, fun hs =>
        (hs.openBlock (t := .blockMapping) fun _ => rfl).emit (t := .value) fun _ => rfl⟩

theorem advances_documentMark (hr : s.rest = c :: cs) (ht : t.IsNeutral) : Advances s cs (s.documentMark t) := by
  intro u h
  obtain ⟨v, hv, h⟩ := Option.bind_eq_some_iff.mp h
  cases h
  refine ⟨?_, fun hs => (hs.of_endDocument hv).emit ht⟩
  show v.rest.drop 3 <:+ cs
  rw [rest_of_endDocument hv, hr]
  exact List.drop_suffix 2 cs

/-! ### Nodes -/

theorem advances_node {read : Option (Token × List Char)} (h : Leaves cs read)
    (hn : ∀ t rest, read = some (t, rest) → t.IsNeutral) : Advances s cs (s.node read) := by
  intro u hu
  obtain ⟨t, rest, hr, he⟩ := emits_of_node hu
  exact he.advances (h hr) (hn t rest hr _)

theorem endsPlain_of_startsPlain {flow : Bool} (h : startsPlain flow c cs = true) :
    endsPlain flow false c cs = false := by
  rw [← Bool.not_eq_true]
  intro he
  simp only [endsPlain, Bool.false_and, Bool.false_or, Bool.or_eq_true, Bool.and_eq_true, beq_iff_eq] at he
  rcases he with ⟨rfl, hg⟩ | ⟨rfl, hi⟩
  · simp [startsPlain, isGap, isBlank, isBreak, isIndicator, hg] at h
  · simp only [isFlowIndicator, Bool.or_eq_true, beq_iff_eq] at hi
    rcases hi with (((rfl | rfl) | rfl) | rfl) | rfl <;>
      simp [startsPlain, isGap, isBlank, isBreak, isIndicator] at h

/-- A plain scalar takes the character it starts with. -/
theorem suffix_of_startsPlain {flow : Bool} {margin : Nat} {p : Plain} (hg : startsPlain flow c cs = true)
    (h : plain flow margin .empty false (c :: cs) = some p) : p.rest <:+ cs := by
  unfold plain at h
  split at h
  · exact suffix_of_plain h
  split at h
  · split at h
    · contradiction
    · exact suffix_of_plain h
  split at h
  · exact suffix_of_plain h
  rw [endsPlain_of_startsPlain hg] at h
  simp only [Gap.column?_empty, leavesPlain, Bool.false_and, Bool.false_eq_true, if_false] at h
  split at h
  · contradiction
  · obtain ⟨q, hq, rfl⟩ := Option.map_eq_some_iff.mp h
    have hrest : q.rest <:+ cs := suffix_of_plain hq
    exact hrest

theorem advances_plainScalar (hr : s.rest = c :: cs) (hg : startsPlain s.inFlow c cs = true) :
    Advances s cs s.plainScalar := by
  intro u hu
  obtain ⟨p, hp, he⟩ := emits_of_plainScalar hu
  rw [hr] at hp
  exact he.advances (suffix_of_startsPlain hg hp) rfl

theorem advances_blockScalar (folded : Bool) (cs : List Char) : Advances s cs (s.blockScalar folded cs) := by
  intro u hu
  obtain ⟨v, hv, hu⟩ := Option.bind_eq_some_iff.mp hu
  obtain ⟨⟨text, rest⟩, hr, hu⟩ := Option.bind_eq_some_iff.mp hu
  cases hu
  exact ⟨leaves_blockScalar _ _ _ hr, fun hs =>
    (hs.of_dropCandidate hv).emit (t := .scalar false (String.ofList text)) fun _ => rfl⟩

theorem advances_directive (cs : List Char) : Advances s cs (s.directive cs) := by
  intro u hu
  obtain ⟨v, hv, hu⟩ := Option.bind_eq_some_iff.mp hu
  obtain ⟨⟨t, mid⟩, hr, hu⟩ := Option.bind_eq_some_iff.mp hu
  obtain ⟨rest, hrest, hu⟩ := Option.bind_eq_some_iff.mp hu
  cases hu
  exact ⟨(suffix_of_lineEnd? hrest).trans (leaves_directive? cs hr), fun hs =>
    (hs.of_endDocument hv).emit (of_directive? (fun _ _ _ => rfl) (fun _ _ _ => rfl) hr)⟩

/-! ### One token -/

/-- **Every token takes the first character at least, and leaves the brackets balanced.** -/
theorem advances_token (hr : s.rest = c :: cs) : Advances s cs (s.token c cs) := by
  unfold token
  simp only
  refine advances_ite (fun _ => advances_directive cs) fun _ => ?_
  refine advances_ite (fun _ => advances_documentMark hr ?_) fun _ => ?_
  · split <;> exact fun _ => rfl
  refine advances_ite (fun _ => advances_openFlow (fun _ => rfl) cs) fun _ => ?_
  refine advances_ite (fun _ => advances_openFlow (fun _ => rfl) cs) fun _ => ?_
  refine advances_ite (fun _ => advances_closeFlow (fun _ => rfl) cs) fun _ => ?_
  refine advances_ite (fun _ => advances_closeFlow (fun _ => rfl) cs) fun _ => ?_
  refine advances_ite (fun _ => advances_flowEntry cs) fun _ => ?_
  refine advances_ite (fun _ => advances_blockEntry cs) fun _ => ?_
  refine advances_ite (fun _ => advances_keyMark cs) fun _ => ?_
  refine advances_ite (fun _ => advances_valueMark cs) fun _ => ?_
  refine advances_ite (fun _ => advances_node ((leaves_anchorName? cs).map fun p => List.suffix_refl p.2)
    (of_map fun _ _ => rfl)) fun _ => ?_
  refine advances_ite (fun _ => advances_node ((leaves_anchorName? cs).map fun p => List.suffix_refl p.2)
    (of_map fun _ _ => rfl)) fun _ => ?_
  refine advances_ite (fun _ => advances_node (leaves_tag? _ c cs) fun _ _ => of_tag? fun _ _ _ => rfl) fun _ => ?_
  refine advances_ite (fun _ => advances_blockScalar false cs) fun _ => ?_
  refine advances_ite (fun _ => advances_blockScalar true cs) fun _ => ?_
  refine advances_ite (fun _ => advances_node ((leaves_singleQuoted _ cs).map fun p => List.suffix_refl p.2)
    (of_map fun _ _ => rfl)) fun _ => ?_
  refine advances_ite (fun _ => advances_node ((leaves_doubleQuoted _ cs).map fun p => List.suffix_refl p.2)
    (of_map fun _ _ => rfl)) fun _ => ?_
  exact advances_ite (fun hg => advances_plainScalar hr hg) fun _ => advances_none

end Lexer

end Stencil.Yaml
