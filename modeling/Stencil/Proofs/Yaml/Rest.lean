import Mathlib.Data.List.TakeDrop
import Stencil.Yaml.Token.Lexer

/-!
# What readers of tokens leave

Every reader takes characters from the front of a text, so what it leaves is a later part of the text
(`Leaves`). The lemmas follow the readers one by one.
-/

namespace Stencil.Yaml

variable {α β : Type} {cs ds rest : List Char}

/-- Whether what is left after reading is a later part of the text. -/
def Leaves (cs : List Char) (found : Option (α × List Char)) : Prop :=
  ∀ ⦃a rest⦄, found = some (a, rest) → rest <:+ cs

theorem Leaves.none (cs : List Char) : Leaves cs (none : Option (α × List Char)) :=
  fun _ _ h => by cases h

theorem Leaves.some (a : α) (h : rest <:+ cs) : Leaves cs (some (a, rest)) := by
  rintro _ _ ⟨⟩
  exact h

theorem Leaves.mono {found : Option (α × List Char)} (h : Leaves cs found) (hs : cs <:+ ds) :
    Leaves ds found := fun _ _ hf => (h hf).trans hs

theorem Leaves.map {found : Option (α × List Char)} (h : Leaves cs found)
    {f : α × List Char → β × List Char} (hf : ∀ p, (f p).2 <:+ p.2) : Leaves cs (found.map f) := by
  intro b rest he
  obtain ⟨⟨a, r⟩, hr, hfr⟩ := Option.map_eq_some_iff.mp he
  have hs := hf (a, r)
  rw [hfr] at hs
  exact hs.trans (h hr)

theorem Leaves.bind {found : Option (α × List Char)} (h : Leaves cs found)
    {f : α × List Char → Option (β × List Char)} (hf : ∀ a r, Leaves r (f (a, r))) :
    Leaves cs (found.bind f) := by
  intro b rest he
  obtain ⟨⟨a, r⟩, hr, hfr⟩ := Option.bind_eq_some_iff.mp he
  exact (hf a r hfr).trans (h hr)

theorem Leaves.cons {c : Char} {found : Option (α × List Char)} (h : Leaves cs found) :
    Leaves (c :: cs) found := h.mono (List.suffix_cons c cs)

/-! ## Names, tags and directives -/

theorem suffix_spanName (cs : List Char) : (spanName cs).2 <:+ cs := by
  rw [spanName, List.span_eq_takeWhile_dropWhile]
  exact List.dropWhile_suffix _

theorem leaves_anchorName? (cs : List Char) : Leaves cs (anchorName? cs) := by
  unfold anchorName?
  have h := suffix_spanName cs
  generalize spanName cs = found at h
  simp only
  split
  · exact .some found.1 h
  · exact .none cs

theorem leaves_address (verbatim : Bool) (count pending code : Nat) (cs : List Char) :
    Leaves cs (address verbatim count pending code cs) := by
  fun_induction address verbatim count pending code cs with
  | case1 | case2 | case7 | case8 | case12 => exact .none _
  | case3 =>
      rename_i ih
      refine Leaves.cons (Leaves.cons (Leaves.cons (ih.map fun p => ?_)))
      split <;> exact List.suffix_refl _
  | case4 | case6 =>
      rename_i ih
      exact ih.cons.cons.cons
  | case5 =>
      rename_i ih
      exact Leaves.cons (Leaves.cons (Leaves.cons (ih.map fun p => List.suffix_refl p.2)))
  | case9 =>
      rename_i ih
      exact Leaves.cons (ih.map fun p => List.suffix_refl p.2)
  | case10 | case11 => exact .some [] (List.suffix_refl _)

theorem leaves_address? (verbatim : Bool) (cs : List Char) : Leaves cs (address? verbatim cs) := by
  intro a rest h
  exact leaves_address verbatim 0 0 0 cs (Option.filter_eq_some_iff.mp h).1

theorem suffix_of_handle?_cons {c : Char} {name : List Char} {closed : Bool}
    (h : handle? (c :: cs) = some (name, closed, rest)) : rest <:+ cs := by
  have hs := suffix_spanName cs
  by_cases hc : c = '!'
  · subst hc
    unfold handle? at h
    simp only at h
    split at h
    · rename_i he
      cases h
      rw [he] at hs
      exact (List.suffix_cons _ _).trans hs
    · rename_i he
      cases h
      rw [he] at hs
      exact hs
  · simp [handle?, hc] at h

theorem suffix_of_handle? {name : List Char} {closed : Bool}
    (h : handle? cs = some (name, closed, rest)) : rest <:+ cs := by
  cases cs with
  | nil => cases h
  | cons c cs => exact (suffix_of_handle?_cons h).trans (List.suffix_cons c cs)

/-- A tag that is written without angle brackets. -/
def shorthand? (cs : List Char) : Option (Token × List Char) :=
  match handle? cs with
  | none => none
  | some (handle, true, rest) =>
      (address? false rest).map fun (suffix, rest) =>
        (Token.tag (String.ofList handle) (String.ofList suffix), rest)
  | some (handle, false, rest) =>
      (address false 0 0 0 rest).map fun (more, rest) =>
        match handle.drop 1 ++ more with
        | [] => (Token.tag "" "!", rest)
        | suffix => (Token.tag "!" (String.ofList suffix), rest)

/-- The rest of a tag in angle brackets. -/
def verbatim? (cs : List Char) : Option (Token × List Char) :=
  match address? true cs with
  | some (suffix, '>' :: rest) => some (Token.tag "" (String.ofList suffix), rest)
  | _ => none

/-- A tag that must end where it is written to end. -/
def ended? (flow : Bool) (found : Option (Token × List Char)) : Option (Token × List Char) :=
  found.bind fun (token, rest) => if endsTag flow rest then some (token, rest) else none

theorem tag?_verbatim (flow : Bool) (cs : List Char) :
    tag? flow ('!' :: '<' :: cs) = ended? flow (verbatim? cs) := by
  unfold tag? verbatim?
  simp only
  rcases address? true cs with _ | ⟨suffix, _ | ⟨c, rest⟩⟩
  · rfl
  · rfl
  · by_cases hc : c = '>'
    · subst hc
      rfl
    · simp [hc, ended?]

theorem tag?_shorthand (flow : Bool) (h : ∀ more, cs ≠ '!' :: '<' :: more) :
    tag? flow cs = ended? flow (shorthand? cs) := by
  unfold tag?
  split
  · exact absurd rfl (h _)
  · unfold shorthand?
    rcases handle? cs with _ | ⟨handle, _ | _, rest⟩ <;> rfl

theorem Leaves.of_ended? {flow : Bool} {found : Option (Token × List Char)} (h : Leaves cs found) :
    Leaves cs (ended? flow found) := by
  refine h.bind fun token rest => ?_
  simp only
  split
  · exact .some token (List.suffix_refl rest)
  · exact .none rest

theorem leaves_shorthand? (c : Char) (cs : List Char) : Leaves cs (shorthand? (c :: cs)) := by
  unfold shorthand?
  split
  · exact .none cs
  · rename_i handle rest h
    refine Leaves.mono ?_ (suffix_of_handle?_cons h)
    exact (leaves_address? false rest).map fun p => List.suffix_refl p.2
  · rename_i handle rest h
    refine Leaves.mono ?_ (suffix_of_handle?_cons h)
    refine (leaves_address false 0 0 0 rest).map fun found => ?_
    simp only
    split <;> exact List.suffix_refl found.2

theorem leaves_verbatim? (cs : List Char) : Leaves cs (verbatim? cs) := by
  unfold verbatim?
  split
  · rename_i suffix rest h
    exact .some _ ((List.suffix_cons _ _).trans (leaves_address? true cs h))
  · exact .none cs

/-- A tag takes the mark it starts with. -/
theorem leaves_tag? (flow : Bool) (c : Char) (cs : List Char) : Leaves cs (tag? flow (c :: cs)) := by
  by_cases hv : ∃ more, c :: cs = '!' :: '<' :: more
  · obtain ⟨more, he⟩ := hv
    obtain ⟨rfl, rfl⟩ := List.cons.inj he
    rw [tag?_verbatim]
    exact (leaves_verbatim? more).of_ended?.cons
  · rw [tag?_shorthand flow fun more he => hv ⟨more, he⟩]
    exact (leaves_shorthand? c cs).of_ended?

theorem suffix_skipBlanks (cs : List Char) : skipBlanks cs <:+ cs := List.dropWhile_suffix _

theorem leaves_versionPart? (cs : List Char) : Leaves cs (versionPart? cs) := by
  unfold versionPart?
  simp only
  split
  · exact .some _ (List.dropWhile_suffix _)
  · exact .none cs

theorem leaves_versionValue? (cs : List Char) : Leaves cs (versionValue? cs) := by
  unfold versionValue?
  refine ((leaves_versionPart? _).mono (suffix_skipBlanks cs)).bind fun major rest => ?_
  simp only
  split
  · refine Leaves.cons ((leaves_versionPart? _).bind fun minor rest => ?_)
    exact .some _ (List.suffix_refl rest)
  · exact .none _

theorem leaves_tagValue? (cs : List Char) : Leaves cs (tagValue? cs) := by
  intro token rest h
  simp only [tagValue?, bind, Option.bind_eq_some_iff] at h
  obtain ⟨⟨handle, closed, mid⟩, hh, h⟩ := h
  have hmid := (suffix_of_handle? hh).trans (suffix_skipBlanks cs)
  simp only at h
  split at h
  · split at h
    · contradiction
    · split at h
      · obtain ⟨⟨expansion, r⟩, he, h⟩ := Option.bind_eq_some_iff.mp h
        simp only at h
        split at h
        · cases h
          exact ((leaves_address? true _ he).trans (suffix_skipBlanks _)).trans hmid
        · contradiction
      · contradiction
  · contradiction

theorem leaves_directive? (cs : List Char) : Leaves cs (directive? cs) := by
  unfold directive?
  have h := suffix_spanName cs
  generalize spanName cs = found at h
  simp only
  split
  · split
    · exact (leaves_versionValue? _).mono h
    · split
      · exact (leaves_tagValue? _).mono h
      · exact .none cs
  · exact .none cs

/-! ## Plain and quoted scalars -/

theorem suffix_of_plain {flow afterGap : Bool} {margin : Nat} {gap : Gap} {p : Plain}
    (h : plain flow margin gap afterGap cs = some p) : p.rest <:+ cs := by
  fun_induction plain flow margin gap afterGap cs generalizing p with
  | case1 | case6 | case7 | case9 =>
      cases h
      exact List.suffix_refl _
  | case2 | case4 | case5 =>
      rename_i ih
      exact (ih h).trans (List.suffix_cons _ _)
  | case3 | case8 => contradiction
  | case10 =>
      rename_i ih
      obtain ⟨q, hq, rfl⟩ := Option.map_eq_some_iff.mp h
      exact (ih hq).trans (List.suffix_cons _ _)

/-- What a quote in a single-quoted scalar stands for: itself if it is doubled, and the end if not. -/
def afterQuote (gap : Gap) (cs : List Char) : Option (List Char × List Char) :=
  match cs with
  | '\'' :: cs => (singleQuoted .empty cs).map fun (s, r) => (gap.text ++ '\'' :: s, r)
  | _ => some (gap.text, cs)

theorem afterQuote_cons (gap : Gap) (cs : List Char) :
    afterQuote gap ('\'' :: cs) = (singleQuoted .empty cs).map fun p => (gap.text ++ '\'' :: p.1, p.2) := rfl

theorem afterQuote_of_ne (h : ∀ more, cs ≠ '\'' :: more) (gap : Gap) :
    afterQuote gap cs = some (gap.text, cs) := by
  unfold afterQuote
  split
  · exact absurd rfl (h _)
  · rfl

theorem singleQuoted_cons (gap : Gap) (c : Char) (cs : List Char) :
    singleQuoted gap (c :: cs) =
      if returnsBeforeNewline c cs then singleQuoted gap cs
      else if isBlank c then singleQuoted (gap.addBlank c) cs
      else if isBreak c then singleQuoted (gap.addBreak c) cs
      else if meetsDocumentMark gap (c :: cs) then none
      else if c = '\'' then afterQuote gap cs
      else (singleQuoted .empty cs).map fun p => (gap.text ++ c :: p.1, p.2) :=
  singleQuoted.eq_def gap (c :: cs)

/-- The induction is on the length, since a doubled quote takes two characters. -/
theorem leaves_singleQuoted (gap : Gap) (cs : List Char) : Leaves cs (singleQuoted gap cs) := by
  induction hn : cs.length using Nat.strongRecOn generalizing gap cs with
  | ind n ih =>
      cases cs with
      | nil => exact .none []
      | cons c cs =>
          rw [List.length_cons] at hn
          have hcs : ∀ gap, Leaves cs (singleQuoted gap cs) := fun gap => ih cs.length (by omega) gap cs rfl
          rw [singleQuoted_cons]
          split
          · exact (hcs gap).cons
          split
          · exact (hcs _).cons
          split
          · exact (hcs _).cons
          split
          · exact .none _
          split
          · by_cases hq : ∃ more, cs = '\'' :: more
            · obtain ⟨more, rfl⟩ := hq
              rw [List.length_cons] at hn
              have hmore : Leaves more (singleQuoted .empty more) := ih more.length (by omega) .empty more rfl
              rw [afterQuote_cons]
              exact Leaves.cons (Leaves.cons (hmore.map fun p => List.suffix_refl p.2))
            · rw [afterQuote_of_ne fun more he => hq ⟨more, he⟩]
              exact .some _ (List.suffix_cons _ _)
          · exact Leaves.cons ((hcs .empty).map fun p => List.suffix_refl p.2)

theorem leaves_doubleQuoted (place : Place) (cs : List Char) : Leaves cs (doubleQuoted place cs) := by
  fun_induction doubleQuoted place cs with
  | case1 | case5 | case11 | case14 | case15 => exact .none _
  | case2 | case3 | case4 | case9 | case10 | case13 | case17 =>
      rename_i ih
      exact ih.cons
  | case6 => exact .some _ (List.suffix_cons _ _)
  | case7 | case8 | case12 | case16 =>
      rename_i ih
      exact Leaves.cons (ih.map fun p => List.suffix_refl p.2)

/-! ## Block scalars -/

theorem leaves_increment? (cs : List Char) : Leaves cs (increment? cs) := by
  unfold increment?
  split
  · exact .some _ (List.suffix_refl [])
  · split
    · exact .none _
    · split
      · exact .some _ (List.suffix_cons _ _)
      · exact .some _ (List.suffix_refl _)

theorem leaves_blockSigns? (cs : List Char) : Leaves cs (blockSigns? cs) := by
  unfold blockSigns?
  split
  · exact .some _ (List.suffix_refl [])
  · split
    · exact Leaves.cons ((leaves_increment? _).map fun p => List.suffix_refl p.2)
    · split
      · exact .none _
      · rename_i h
        exact .some _ (leaves_increment? _ h)
      · exact .some _ List.nil_suffix
      · rename_i h
        have hs := leaves_increment? _ h
        split
        · exact .some _ ((List.suffix_cons _ _).trans hs)
        · exact .some _ hs

theorem suffix_of_lineEnd? (h : lineEnd? cs = some rest) : rest <:+ cs := by
  unfold lineEnd? at h
  have hblank : cs.dropWhile isBlank <:+ cs := List.dropWhile_suffix _
  generalize cs.dropWhile isBlank = behind at h hblank
  have hcomment : (if behind.head? == some '#' then behind.dropWhile (!isBreak ·) else behind) <:+ cs := by
    split
    · exact (List.dropWhile_suffix _).trans hblank
    · exact hblank
  simp only at h
  split at h
  · cases h
    exact List.nil_suffix
  · rename_i he
    cases h
    rw [he] at hcomment
    exact ((List.suffix_cons _ _).trans (List.suffix_cons _ _)).trans hcomment
  · rename_i he
    split at h
    · cases h
      rw [he] at hcomment
      exact (List.suffix_cons _ _).trans hcomment
    · contradiction

theorem leaves_blockLines (folded : Bool) (chomping : Chomping) (indent : Nat) (place : BlockPlace)
    (cs : List Char) : Leaves cs (blockLines folded chomping indent place cs) := by
  fun_induction blockLines folded chomping indent place cs with
  | case1 | case2 | case9 => exact .some _ (List.suffix_refl _)
  | case3 | case4 | case6 | case8 =>
      rename_i ih
      exact ih.cons
  | case5 | case10 =>
      rename_i ih
      exact Leaves.cons (ih.map fun p => List.suffix_refl p.2)
  | case7 => exact .none _

theorem leaves_blockScalar (folded : Bool) (margin : Nat) (cs : List Char) :
    Leaves cs (blockScalar folded margin cs) := by
  intro text rest h
  simp only [blockScalar, bind, Option.bind_eq_some_iff] at h
  obtain ⟨⟨header, r⟩, hr, behind, hb, h⟩ := h
  obtain ⟨indent, -, h⟩ : ∃ indent, True ∧ blockLines folded header.chomping indent
      (.between false none [] 0) behind = some (text, rest) := by
    split at h
    · obtain ⟨indent, -, h⟩ := Option.bind_eq_some_iff.mp h
      exact ⟨indent, trivial, h⟩
    · obtain ⟨indent, -, h⟩ := Option.bind_eq_some_iff.mp h
      exact ⟨indent, trivial, h⟩
  exact ((leaves_blockLines _ _ _ _ _ h).trans (suffix_of_lineEnd? hb)).trans (leaves_blockSigns? cs hr)

end Stencil.Yaml
