import Stencil.Proofs.Yaml.Atoms
import Stencil.Proofs.Yaml.Steps

/-!
# The order of atoms in a text

A text is cut from the front, and every step cuts off one atom or none. The tokens that are put in front of others
after the fact are no atoms. So the atoms among the tokens stand in the text one behind the other (`InOrder`): each
is read from a place in the text, and the next one from a place behind its end.

Main statement: `inOrder_of_tokens?`.
-/

namespace Stencil.Yaml

/-- Whether a text starts with an atom, and how it goes on behind it. -/
inductive Atom.Starts : Atom → List Char → List Char → Prop
  | plain {flow : Bool} {margin : Nat} {cs : List Char} {p : Plain}
      (h : Yaml.plain flow margin .empty false cs = some p) :
      Starts (.scalar true (String.ofList p.text)) cs p.rest
  | block {folded : Bool} {margin : Nat} {cs text rest : List Char}
      (h : blockScalar folded margin cs = some (text, rest)) :
      Starts (.scalar false (String.ofList text)) ((if folded then '>' else '|') :: cs) rest
  | single {cs text rest : List Char} (h : singleQuoted .empty cs = some (text, rest)) :
      Starts (.scalar false (String.ofList text)) ('\'' :: cs) rest
  | double {cs text rest : List Char} (h : doubleQuoted (.text .empty) cs = some (text, rest)) :
      Starts (.scalar false (String.ofList text)) ('"' :: cs) rest
  | alias {cs name rest : List Char} (h : anchorName? cs = some (name, rest)) : Starts .alias ('*' :: cs) rest

/-- Whether atoms stand in a text one behind the other. -/
inductive InOrder : List Char → List Atom → Prop
  | nil (cs : List Char) : InOrder cs []
  | cons {cs mid rest : List Char} {a : Atom} {as : List Atom} (hmid : mid <:+ cs) (ha : a.Starts mid rest)
      (hrest : rest <:+ mid.tail) (has : InOrder rest as) : InOrder cs (a :: as)

variable {cs mid rest : List Char} {t : Token}

theorem InOrder.of_suffix {as : List Atom} (h : InOrder mid as) (hs : mid <:+ cs) : InOrder cs as := by
  cases h with
  | nil => exact .nil cs
  | cons hmid ha hrest has => exact .cons (hmid.trans hs) ha hrest has

/-! ## Tokens -/

theorem atomsOf_append (ts us : List Token) : atomsOf (ts ++ us) = atomsOf ts ++ atomsOf us := List.flatMap_append

theorem overlooks_of_atoms (h : t.atoms = []) : Overlooks atomsOf t := by
  intro ts us
  rw [atomsOf_append, atomsOf_append, atomsOf_cons, h, List.nil_append]

/-- Whether the atom that a token is, if it is one, is what a text starts with. -/
def Token.Fits (t : Token) (cs rest : List Char) : Prop := ∀ a ∈ t.atoms, t.atoms = [a] ∧ a.Starts cs rest

theorem fits_of_atoms (h : t.atoms = []) : t.Fits cs rest := by
  intro a ha
  rw [h] at ha
  cases ha

theorem fits_scalar {plain : Bool} {text : String} (h : (Atom.scalar plain text).Starts cs rest) :
    (Token.scalar plain text).Fits cs rest := by
  have hatoms : (Token.scalar plain text).atoms = scalarAtoms plain text := rfl
  intro a ha
  rw [hatoms] at ha ⊢
  unfold scalarAtoms at ha ⊢
  split at ha
  · cases ha
  · obtain rfl := List.mem_singleton.mp ha
    rename_i hwritten
    exact ⟨if_neg hwritten, h⟩

namespace Lexer

variable {s u : Lexer} {c : Char}

/-- Whether one atom is new at a place, which a text starts with, or none is. -/
def Found (s : Lexer) (cs : List Char) (u : Lexer) : Prop :=
  ∃ as, atomsOf u.tokens.reverse = atomsOf s.tokens.reverse ++ as ∧ ∀ a ∈ as, as = [a] ∧ a.Starts cs u.rest

/-- Whether what is cut off the front of a text is an atom that the text starts with, or none. -/
def Finds (s : Lexer) (cs : List Char) (found : Option Lexer) : Prop := ∀ ⦃u⦄, found = some u → Found s cs u

theorem finds_none : Finds s cs none := fun _ h => by cases h

theorem finds_ite {p : Prop} [Decidable p] {a b : Option Lexer} (ha : p → Finds s cs a)
    (hb : ¬ p → Finds s cs b) : Finds s cs (if p then a else b) := by
  split
  · exact ha ‹p›
  · exact hb ‹¬ p›

theorem found_of_eq (h : atomsOf u.tokens.reverse = atomsOf s.tokens.reverse) : Found s cs u :=
  ⟨[], by rw [h, List.append_nil], fun _ ha => by cases ha⟩

theorem atomsOf_emit (ht : t.atoms = []) : atomsOf (s.emit t).tokens.reverse = atomsOf s.tokens.reverse :=
  seen_emit (overlooks_of_atoms ht)

theorem Emits.found {k : Nat} (h : Emits s t rest k u) (ht : t.Fits cs rest) : Found s cs u := by
  refine ⟨t.atoms, ?_, h.rest ▸ ht⟩
  rw [h.tokens, List.reverse_cons, atomsOf_append, atomsOf_cons, atomsOf_nil, List.append_nil]

theorem finds_openFlow (ht : t.atoms = []) (more : List Char) : Finds s cs (s.openFlow t more) :=
  fun _ h => (emits_of_openFlow h).found (fits_of_atoms ht)

theorem finds_closeFlow (ht : t.atoms = []) (more : List Char) : Finds s cs (s.closeFlow t more) :=
  fun _ h => (emits_of_closeFlow h).found (fits_of_atoms ht)

theorem finds_flowEntry (more : List Char) : Finds s cs (s.flowEntry more) :=
  fun _ h => (emits_of_flowEntry h).found (fits_of_atoms rfl)

/-- A mark in front of an item or a key may open a block, and that is all the tokens it makes. -/
theorem atomsOf_blockMark {v : Lexer} {start : Token} (hv : (s.openBlock start).dropCandidate = some v)
    (hstart : start.atoms = []) (ht : t.atoms = []) (more : List Char) :
    atomsOf ((v.moveTo more).emit t).tokens.reverse = atomsOf s.tokens.reverse := by
  refine (atomsOf_emit (s := v.moveTo more) ht).trans ?_
  exact (seen_of_dropCandidate hv).trans (seen_openBlock (overlooks_of_atoms hstart))

theorem finds_blockEntry (more : List Char) : Finds s cs (s.blockEntry more) := by
  refine finds_ite (fun _ => finds_none) fun _ u h => ?_
  obtain ⟨v, hv, h⟩ := Option.bind_eq_some_iff.mp h
  cases h
  exact found_of_eq (atomsOf_blockMark hv rfl rfl more)

theorem finds_keyMark (more : List Char) : Finds s cs (s.keyMark more) := by
  refine finds_ite (fun _ => finds_none) fun _ u h => ?_
  obtain ⟨v, hv, h⟩ := Option.bind_eq_some_iff.mp h
  cases h
  exact found_of_eq (atomsOf_blockMark hv rfl rfl more)

theorem finds_valueMark (more : List Char) : Finds s cs (s.valueMark more) := by
  cases hc : s.candidate with
  | some c =>
      rw [valueMark_of_candidate hc]
      rintro u ⟨⟩
      refine found_of_eq ((atomsOf_emit (s := (s.openKey c).moveTo more) rfl).trans ?_)
      exact seen_openKey (overlooks_of_atoms rfl) (overlooks_of_atoms rfl) c
  | none =>
      unfold valueMark
      rw [hc]
      refine finds_ite (fun _ => finds_none) fun _ u h => ?_
      cases h
      refine found_of_eq ((atomsOf_emit (s := (s.openBlock .blockMapping).moveTo more) rfl).trans ?_)
      exact seen_openBlock (overlooks_of_atoms rfl)

theorem finds_documentMark (ht : t.atoms = []) : Finds s cs (s.documentMark t) := by
  intro u h
  obtain ⟨v, hv, h⟩ := Option.bind_eq_some_iff.mp h
  cases h
  refine found_of_eq ((atomsOf_emit (s := v.moveTo (v.rest.drop 3)) ht).trans ?_)
  exact (seen_of_endDocument (overlooks_of_atoms rfl) hv :)

theorem finds_directive (more : List Char) : Finds s cs (s.directive more) := by
  intro u hu
  obtain ⟨v, hv, hu⟩ := Option.bind_eq_some_iff.mp hu
  obtain ⟨⟨t, mid⟩, hr, hu⟩ := Option.bind_eq_some_iff.mp hu
  obtain ⟨rest, hrest, hu⟩ := Option.bind_eq_some_iff.mp hu
  cases hu
  have ht : t.atoms = [] := of_directive? (P := fun t => t.atoms = []) (fun _ _ => rfl) (fun _ _ => rfl) hr
  exact found_of_eq ((atomsOf_emit (s := v.moveTo rest) ht).trans
    (seen_of_endDocument (overlooks_of_atoms rfl) hv :))

/-! ### Nodes -/

theorem finds_node {read : Option (Token × List Char)} (h : ∀ t rest, read = some (t, rest) → t.Fits cs rest) :
    Finds s cs (s.node read) := by
  intro u hu
  obtain ⟨t, rest, hr, he⟩ := emits_of_node hu
  exact he.found (h t rest hr)

/-- A node whose token is made of a text that is read. -/
theorem finds_node_map {found : Option (List Char × List Char)} (f : List Char → Token)
    (h : ∀ text rest, found = some (text, rest) → (f text).Fits cs rest) :
    Finds s cs (s.node (found.map fun p => (f p.1, p.2))) := by
  refine finds_node fun t rest ht => ?_
  obtain ⟨⟨text, more⟩, hfound, he⟩ := Option.map_eq_some_iff.mp ht
  cases he
  exact h _ _ hfound

theorem finds_plainScalar (hr : s.rest = cs) : Finds s cs s.plainScalar := by
  intro u hu
  obtain ⟨p, hp, he⟩ := emits_of_plainScalar hu
  exact he.found (fits_scalar (.plain (hr ▸ hp)))

theorem finds_blockScalar {folded : Bool} {more : List Char} (hcs : cs = (if folded then '>' else '|') :: more) :
    Finds s cs (s.blockScalar folded more) := by
  intro u hu
  obtain ⟨v, hv, hu⟩ := Option.bind_eq_some_iff.mp hu
  obtain ⟨⟨text, rest⟩, hr, hu⟩ := Option.bind_eq_some_iff.mp hu
  cases hu
  refine ⟨[.scalar false (String.ofList text)], ?_, fun a ha => ?_⟩
  · show atomsOf (Token.scalar false (String.ofList text) :: v.tokens).reverse = _
    rw [List.reverse_cons, atomsOf_append, seen_of_dropCandidate (f := atomsOf) hv]
    rfl
  · obtain rfl := List.mem_singleton.mp ha
    exact ⟨rfl, hcs ▸ .block hr⟩

/-- **A token is an atom that the text starts with, or none.** -/
theorem finds_token {c : Char} (hr : s.rest = c :: cs) : Finds s (c :: cs) (s.token c cs) := by
  unfold token
  simp only
  -- Marks come first, which are no atoms. Nodes and what may stand in front of them follow.
  refine finds_ite (fun _ => finds_directive cs) fun _ => ?_
  refine finds_ite (fun _ => finds_documentMark (by split <;> rfl)) fun _ => ?_
  refine finds_ite (fun _ => finds_openFlow rfl cs) fun _ => ?_
  refine finds_ite (fun _ => finds_openFlow rfl cs) fun _ => ?_
  refine finds_ite (fun _ => finds_closeFlow rfl cs) fun _ => ?_
  refine finds_ite (fun _ => finds_closeFlow rfl cs) fun _ => ?_
  refine finds_ite (fun _ => finds_flowEntry cs) fun _ => ?_
  refine finds_ite (fun _ => finds_blockEntry cs) fun _ => ?_
  refine finds_ite (fun _ => finds_keyMark cs) fun _ => ?_
  refine finds_ite (fun _ => finds_valueMark cs) fun _ => ?_
  refine finds_ite (fun hc => finds_node_map (fun n => .alias (String.ofList n)) fun name rest hname => ?_)
    fun _ => ?_
  · intro a ha
    obtain rfl := List.mem_singleton.mp ha
    exact ⟨rfl, hc ▸ .alias hname⟩
  refine finds_ite (fun _ => finds_node_map (fun n => .anchor (String.ofList n)) fun _ _ _ => fits_of_atoms rfl)
    fun _ => ?_
  refine finds_ite (fun _ => finds_node fun t rest ht => ?_) fun _ => ?_
  · exact fits_of_atoms (of_tag? (P := fun t => t.atoms = []) (fun _ _ => rfl) ht)
  refine finds_ite (fun hc => finds_blockScalar (by rw [hc.1]; rfl)) fun _ => ?_
  refine finds_ite (fun hc => finds_blockScalar (by rw [hc.1]; rfl)) fun _ => ?_
  refine finds_ite (fun hc => finds_node_map (fun t => .scalar false (String.ofList t)) fun text rest ht => ?_)
    fun _ => ?_
  · exact fits_scalar (hc ▸ .single ht)
  refine finds_ite (fun hc => finds_node_map (fun t => .scalar false (String.ofList t)) fun text rest ht => ?_)
    fun _ => ?_
  · exact fits_scalar (hc ▸ .double ht)
  exact finds_ite (fun _ => finds_plainScalar hr) fun _ => finds_none

/-! ## Runs -/

/-- **A step finds an atom or none**, and the text behind it is left. -/
theorem Steps.finds (h : Steps s u) {as : List Atom} (hrest : InOrder u.rest as) :
    ∃ found, atomsOf u.tokens.reverse = atomsOf s.tokens.reverse ++ found ∧ InOrder s.rest (found ++ as) := by
  obtain ⟨v, c, cs, hv, hr, hu⟩ := h
  have hready := ready_of_ready? hv
  have hsuffix : c :: cs <:+ s.rest := by
    rw [← hr, hready.rest]
    exact suffix_skipToToken ..
  have hblocks : (v.closeBlocks (v.position.column + 1)).rest = c :: cs := by rw [rest_closeBlocks, hr]
  have hbehind : u.rest <:+ cs := (advances_token hblocks hu).1
  obtain ⟨found, htokens, hfound⟩ := finds_token hblocks hu
  refine ⟨found, ?_, ?_⟩
  · rw [htokens, seen_closeBlocks (overlooks_of_atoms rfl), hready.tokens]
  · cases found with
    | nil => exact hrest.of_suffix (hbehind.trans ((List.suffix_cons c cs).trans hsuffix))
    | cons a found =>
        obtain ⟨hone, hstarts⟩ := hfound a List.mem_cons_self
        rw [hone]
        exact .cons hsuffix hstarts hbehind hrest

/-- **A run finds the atoms that are left in order.** -/
theorem inOrder_of_run {ts : List Token} (n : Nat) (h : run n s = some ts) :
    ∃ as, atomsOf ts = atomsOf s.tokens.reverse ++ as ∧ InOrder s.rest as := by
  induction n generalizing s with
  | zero => cases h
  | succ n ih =>
      rcases steps_or_end_of_run h with ⟨u, hs, hu⟩ | ⟨u, hu, -, hf⟩
      · obtain ⟨as, hts, has⟩ := ih hu
        obtain ⟨found, htokens, hfound⟩ := hs.finds has
        exact ⟨found ++ as, by rw [hts, htokens, List.append_assoc], hfound⟩
      · obtain ⟨v, hv, hf⟩ := Option.map_eq_some_iff.mp hf
        refine ⟨[], ?_, .nil s.rest⟩
        rw [← hf, seen_of_endDocument (overlooks_of_atoms rfl) hv, (ready_of_ready? hu).tokens, List.append_nil]

end Lexer

/-- **The atoms among the tokens of a text stand in it in their order.** -/
theorem inOrder_of_tokens? {text : List Char} {ts : List Token} (h : tokens? text = some ts) :
    InOrder text (atomsOf ts) := by
  obtain ⟨n, hn⟩ := (Lexer.tokens?_eq_some_iff.mp h).2
  obtain ⟨as, hts, has⟩ := Lexer.inOrder_of_run n hn
  obtain rfl : atomsOf ts = as := hts
  exact has

end Stencil.Yaml
