import Mathlib.Data.List.TakeWhile
import Stencil.Proofs.Yaml.Behind.Character
import Stencil.Proofs.Yaml.Rest

/-!
# Properties and directives in front of fillers

Names, tags and the values of directives hold no white space, so they end where the fillers behind a text start:
what is read is the same, and the fillers are behind what is left.
-/

namespace Stencil.Yaml

open Stencil.Text

variable {cs t : List Char} {c : Char}

/-! ## Names and tags -/

/-- What is taken from the front of a text as long as a condition holds, when it fails behind the text. -/
theorem takeWhile_append_of_stop {p : Char → Bool} (hp : ∀ c ∈ t, p c = false) (cs : List Char) :
    (cs ++ t).takeWhile p = cs.takeWhile p ∧ (cs ++ t).dropWhile p = cs.dropWhile p ++ t := by
  induction cs with
  | nil =>
      cases t with
      | nil => exact ⟨rfl, rfl⟩
      | cons d t => simp [hp d List.mem_cons_self]
  | cons c cs ih =>
      rw [List.cons_append, List.takeWhile_cons, List.takeWhile_cons, List.dropWhile_cons,
        List.dropWhile_cons]
      split
      · exact ⟨by rw [ih.1], ih.2⟩
      · exact ⟨rfl, rfl⟩

/-- What is read from a text, with more text behind what is left of it. -/
def extend {α : Type} (t : List Char) (found : α × List Char) : α × List Char := (found.1, found.2 ++ t)

theorem spanName_append (ht : AllFiller t) (cs : List Char) :
    spanName (cs ++ t) = extend t (spanName cs) := by
  have hname : ∀ c ∈ t, isNameChar c = false := fun c hc => by
    simpa using of_isGap (p := fun c => !isNameChar c) (by decide) (ht c hc)
  obtain ⟨htake, hdrop⟩ := takeWhile_append_of_stop hname cs
  rw [spanName, spanName, List.span_eq_takeWhile_dropWhile, List.span_eq_takeWhile_dropWhile, htake,
    hdrop]
  rfl

theorem endsName_append (ht : AllFiller t) (cs : List Char) : endsName (cs ++ t) = endsName cs := by
  cases cs with
  | cons c cs => rfl
  | nil =>
      cases t with
      | nil => rfl
      | cons d t => simp [endsName, ht d List.mem_cons_self]

theorem anchorName?_append (ht : AllFiller t) (cs : List Char) :
    anchorName? (cs ++ t) = (anchorName? cs).map (extend t) := by
  unfold anchorName?
  rw [spanName_append ht]
  simp only [extend, endsName_append ht]
  split <;> rfl

/-- A filler is no digit. -/
theorem hexDigit?_of_isGap (h : isGap c = true) : Decimal.hexDigit? c = none := by
  have hnone : (Decimal.hexDigit? c).isNone = true :=
    of_isGap (p := fun c => (Decimal.hexDigit? c).isNone) (by decide) h
  exact Option.isNone_iff_eq_none.mp hnone

theorem ofDigitsIn?_of_isGap {a b : Char} (h : isGap a = true ∨ isGap b = true) :
    Decimal.ofDigitsIn? 16 [a, b] = none := by
  rcases h with h | h
  · simp [Decimal.ofDigitsIn?, hexDigit?_of_isGap h]
  · simp only [Decimal.ofDigitsIn?, List.isEmpty_cons, List.foldlM_cons, List.foldlM_nil,
      hexDigit?_of_isGap h]
    simp

/-- An escape that is cut short by the end of the text is cut short by a filler as well. -/
theorem address_of_cut (ht : AllFiller t) {verbatim : Bool} {count pending code : Nat}
    (hcs : ∀ a b more, cs ≠ a :: b :: more) :
    address verbatim count pending code ('%' :: (cs ++ t)) = none := by
  unfold address
  split
  · rename_i a b more he
    have hfiller : isGap a = true ∨ isGap b = true := by
      have he : cs ++ t = a :: b :: more := (List.cons.inj he).2
      match cs, hcs with
      | [], _ => exact .inl (ht a (by rw [show t = a :: b :: more from he]; simp))
      | [d], _ => exact .inr (ht b (by rw [show t = b :: more from (List.cons.inj he).2]; simp))
      | d :: e :: ds, h => exact absurd rfl (h d e ds)
    rw [ofDigitsIn?_of_isGap hfiller]
  · rename_i he
    obtain ⟨rfl, -⟩ := List.cons.inj he
    simp
  · rename_i he
    cases he

theorem address_cons {verbatim : Bool} {count pending code : Nat} (hc : c ≠ '%') (cs : List Char) :
    address verbatim count pending code (c :: cs)
      = if pending ≠ 0 then none
        else if isAddressChar verbatim c then (address verbatim 0 0 0 cs).map (startingWith c)
        else some ([], c :: cs) := by
  rw [address]
  · simp only [hc, or_false]
  · exact fun a b more h => absurd h hc

theorem address_append (ht : AllFiller t) (verbatim : Bool) (count pending code : Nat) (cs : List Char) :
    address verbatim count pending code (cs ++ t)
      = (address verbatim count pending code cs).map (extend t) := by
  have hstart : ∀ c found, extend t (startingWith c found) = startingWith c (extend t found) :=
    fun _ _ => rfl
  fun_induction address verbatim count pending code cs with
  | case1 count pending code a b cs h => simp [address, h]
  | case2 count code a b cs byte h hb => simp [address, h, hb]
  | case3 count code a b cs byte h hb ih =>
      simp only [List.cons_append, address, h, hb, ih, Option.map_map]
      congr 1
      funext found
      simp only [Function.comp]
      split <;> rfl
  | case4 count code a b cs byte h count' hne hb ih =>
      simp only [List.cons_append, address, h, hb, ih]
  | case5 count code a b cs byte h hb code' ih =>
      simp only [List.cons_append, address, h, hb, if_true, ih, Option.map_map]
      rfl
  | case6 count code a b cs byte h n hb code' hn ih =>
      simp only [List.cons_append, address, h, hb, if_true, if_neg hn]
      exact ih
  | case7 count code a b cs byte h n hb =>
      simp only [List.cons_append, address, h, hb, if_false]
      rfl
  | case8 count pending code c cs hcs h =>
      -- A percent sign with less than two digits behind it; a filler does not stand for a digit.
      by_cases hc : c = '%'
      · subst hc
        rw [List.cons_append, address_of_cut ht fun a b more he => hcs a b more rfl he]
        rfl
      · rw [List.cons_append, address_cons hc, if_pos (h.resolve_right hc)]
        rfl
  | case9 count pending code c cs hcs h ha ih =>
      obtain ⟨hp, hc⟩ := not_or.mp h
      rw [List.cons_append, address_cons hc, if_neg hp, if_pos ha, ih, Option.map_map, Option.map_map]
      rfl
  | case10 count pending code c cs hcs h ha =>
      obtain ⟨hp, hc⟩ := not_or.mp h
      rw [List.cons_append, address_cons hc, if_neg hp, if_neg ha]
      rfl
  | case11 count code =>
      -- The address runs to the end of the text, and no filler goes on with it.
      cases t with
      | nil => rfl
      | cons d t =>
          have hd := ht d List.mem_cons_self
          have haddress : isAddressChar verbatim d = false := by
            simpa using of_isGap (p := fun c => !isAddressChar verbatim c) (by cases verbatim <;> decide) hd
          rw [List.nil_append, address_cons (ne_of_isGap hd (by decide)), if_neg (by simp), haddress]
          rfl
  | case12 count pending code h =>
      -- The bytes of a character are missing, at a filler as at the end of the text.
      cases t with
      | nil => simp [address, h]
      | cons d t =>
          have hd := ht d List.mem_cons_self
          rw [List.nil_append, address_cons (ne_of_isGap hd (by decide)), if_pos h]
          rfl

theorem address?_append (ht : AllFiller t) (verbatim : Bool) (cs : List Char) :
    address? verbatim (cs ++ t) = (address? verbatim cs).map (extend t) := by
  unfold address?
  rw [address_append ht]
  cases address verbatim 0 0 0 cs with
  | none => rfl
  | some found =>
      obtain ⟨name, rest⟩ := found
      have hlen : (rest ++ t).length < (cs ++ t).length ↔ rest.length < cs.length := by
        simp only [List.length_append]
        omega
      simp only [Option.map_some, Option.filter_some, extend, hlen]
      split <;> rfl

theorem address?_of_filler (ht : AllFiller t) (verbatim : Bool) : address? verbatim t = none := by
  have h := address?_append ht verbatim []
  rwa [List.nil_append] at h

theorem ne_cons_of_filler (ht : AllFiller t) {d : Char} (hd : d ∉ fillers) (rest : List Char) :
    t ≠ d :: rest := by
  rintro rfl
  exact hd (isGap_iff.mp (ht d List.mem_cons_self))

theorem handle?_of_filler (ht : AllFiller t) : handle? t = none := by
  unfold handle?
  split
  · exact absurd rfl (ne_cons_of_filler ht (by decide) _)
  · rfl

theorem handle?_append (ht : AllFiller t) (cs : List Char) :
    handle? (cs ++ t) = (handle? cs).map fun (name, closed, rest) => (name, closed, rest ++ t) := by
  cases cs with
  | nil => exact handle?_of_filler ht
  | cons c cs =>
      by_cases hc : c = '!'
      · subst hc
        simp only [List.cons_append, handle?, spanName_append ht, extend]
        obtain ⟨name, rest⟩ := spanName cs
        cases rest with
        | nil =>
            simp only [List.nil_append]
            split
            · rename_i he
              exact absurd (Prod.mk.inj he).2 (ne_cons_of_filler ht (by decide) _)
            · rename_i he
              obtain ⟨rfl, rfl⟩ := Prod.mk.inj he
              rfl
        | cons d rest =>
            by_cases hd : d = '!'
            · subst hd
              rfl
            · simp [hd]
      · simp [handle?, hc]

theorem endsTag_append (ht : AllFiller t) (flow : Bool) (cs : List Char) :
    endsTag flow (cs ++ t) = endsTag flow cs := by
  cases cs with
  | cons c cs => rfl
  | nil =>
      cases t with
      | nil => rfl
      | cons d t => simp [endsTag, ht d List.mem_cons_self]

theorem ended?_map (ht : AllFiller t) (flow : Bool) (found : Option (Token × List Char)) :
    ended? flow (found.map (extend t)) = (ended? flow found).map (extend t) := by
  cases found with
  | none => rfl
  | some found =>
      simp only [Option.map_some, ended?, Option.bind_some, extend, endsTag_append ht]
      split <;> rfl

theorem shorthand?_append (ht : AllFiller t) (cs : List Char) :
    shorthand? (cs ++ t) = (shorthand? cs).map (extend t) := by
  unfold shorthand?
  rw [handle?_append ht]
  rcases handle? cs with _ | ⟨handle, _ | _, rest⟩
  · rfl
  · simp only [Option.map_some, address_append ht, Option.map_map]
    congr 1
    funext found
    simp only [Function.comp, extend]
    split <;> rfl
  · simp only [Option.map_some, address?_append ht, Option.map_map]
    rfl

theorem verbatim?_append (ht : AllFiller t) (cs : List Char) :
    verbatim? (cs ++ t) = (verbatim? cs).map (extend t) := by
  unfold verbatim?
  rw [address?_append ht]
  rcases address? true cs with _ | ⟨suffix, _ | ⟨c, rest⟩⟩
  · rfl
  · simp only [Option.map_some, extend, List.nil_append]
    split
    · rename_i he
      exact absurd (Prod.mk.inj (Option.some.inj he)).2 (ne_cons_of_filler ht (by decide) _)
    · rfl
  · by_cases hc : c = '>'
    · subst hc
      rfl
    · simp [extend, hc]

theorem tag?_append (ht : AllFiller t) (flow : Bool) (cs : List Char) :
    tag? flow (cs ++ t) = (tag? flow cs).map (extend t) := by
  by_cases hv : ∃ more, cs = '!' :: '<' :: more
  · obtain ⟨more, rfl⟩ := hv
    rw [List.cons_append, List.cons_append, tag?_verbatim, tag?_verbatim, verbatim?_append ht,
      ended?_map ht]
  · have hno : ∀ more, cs ≠ '!' :: '<' :: more := fun more he => hv ⟨more, he⟩
    have hno' : ∀ more, cs ++ t ≠ '!' :: '<' :: more := by
      intro more he
      match cs, hno with
      | [], _ => exact ne_cons_of_filler ht (by decide) _ he
      | [c], _ => exact ne_cons_of_filler ht (by decide) _ (List.cons.inj he).2
      | c :: d :: cs, hno =>
          simp only [List.cons_append, List.cons.injEq] at he
          exact hno cs (by rw [he.1, he.2.1])
    rw [tag?_shorthand flow hno, tag?_shorthand flow hno', shorthand?_append ht, ended?_map ht]

/-! ## Directives -/

theorem skipBlanks_ne_nil (h : EndsSolid cs) (hne : cs ≠ []) : skipBlanks cs ≠ [] := by
  intro hnil
  have hb := List.dropWhile_eq_nil_iff.mp hnil _ (List.getLast_mem hne)
  have hsolid := h _ (List.getLast?_eq_some_getLast hne)
  simp only [isBlank, Bool.or_eq_true, beq_iff_eq] at hb
  rcases hb with hb | hb <;> rw [hb] at hsolid <;> contradiction

theorem skipBlanks_append (h : EndsSolid cs) (hne : cs ≠ []) (t : List Char) :
    skipBlanks (cs ++ t) = skipBlanks cs ++ t := by
  have hnil := skipBlanks_ne_nil h hne
  unfold skipBlanks at *
  rw [List.dropWhile_append, if_neg (by simpa [List.isEmpty_iff] using hnil)]

/-- What is left of fillers when blanks are dropped. -/
theorem allFiller_skipBlanks (ht : AllFiller t) : AllFiller (skipBlanks t) :=
  fun c hc => ht c ((List.dropWhile_suffix _).subset hc)

theorem versionPart?_append (ht : AllFiller t) (cs : List Char) :
    versionPart? (cs ++ t) = (versionPart? cs).map (extend t) := by
  have hdigit : ∀ c ∈ t, c.isDigit = false := fun c hc => by
    simpa using of_isGap (p := fun c => !c.isDigit) (by decide) (ht c hc)
  obtain ⟨htake, hdrop⟩ := takeWhile_append_of_stop hdigit cs
  simp only [versionPart?, Decimal.spanDigits, htake, hdrop]
  by_cases h : 0 < (cs.takeWhile Char.isDigit).length ∧ (cs.takeWhile Char.isDigit).length ≤ 9
  · simp [h, extend]
  · simp [h]

theorem versionPart?_of_filler (ht : AllFiller t) : versionPart? t = none := by
  have h := versionPart?_append ht []
  rwa [List.nil_append] at h

/-- The part of a version behind its first number. -/
def minor? (major : Nat) (cs : List Char) : Option (Token × List Char) :=
  match cs with
  | '.' :: rest => (versionPart? rest).bind fun p => some (Token.version major p.1, p.2)
  | _ => none

theorem minor?_of_ne {major : Nat} (h : ∀ more, cs ≠ '.' :: more) : minor? major cs = none := by
  unfold minor?
  split
  · exact absurd rfl (h _)
  · rfl

theorem versionValue?_eq (cs : List Char) :
    versionValue? cs = (versionPart? (skipBlanks cs)).bind fun p => minor? p.1 p.2 := rfl

theorem minor?_append (ht : AllFiller t) (major : Nat) (cs : List Char) :
    minor? major (cs ++ t) = (minor? major cs).map (extend t) := by
  by_cases hdot : ∃ more, cs = '.' :: more
  · obtain ⟨more, rfl⟩ := hdot
    simp only [List.cons_append, minor?, versionPart?_append ht]
    cases versionPart? more <;> rfl
  · have hne : ∀ more, cs ≠ '.' :: more := fun more he => hdot ⟨more, he⟩
    have hne' : ∀ more, cs ++ t ≠ '.' :: more := by
      intro more he
      cases cs with
      | nil => exact ne_cons_of_filler ht (by decide) more he
      | cons d cs => exact hne cs (by rw [(List.cons.inj he).1])
    rw [minor?_of_ne hne, minor?_of_ne hne']
    rfl

theorem versionValue?_append (ht : AllFiller t) (h : EndsSolid cs) :
    versionValue? (cs ++ t) = (versionValue? cs).map (extend t) := by
  rw [versionValue?_eq, versionValue?_eq]
  by_cases hne : cs = []
  · rw [hne, List.nil_append, versionPart?_of_filler (allFiller_skipBlanks ht)]
    rfl
  · rw [skipBlanks_append h hne, versionPart?_append ht]
    cases versionPart? (skipBlanks cs) with
    | none => rfl
    | some p => exact minor?_append ht p.1 p.2

/-- The value of a tag directive after its handle. -/
def expansion? (handle : List Char) (closed : Bool) (rest : List Char) : Option (Token × List Char) :=
  if closed || handle == ['!'] then
    match rest with
    | [] => none
    | c :: _ =>
        if isBlank c then
          (address? true (skipBlanks rest)).bind fun (expansion, rest) =>
            if startsGap rest then
              some (Token.tagHandle (String.ofList handle) (String.ofList expansion), rest)
            else none
        else none
  else none

theorem tagValue?_eq (cs : List Char) :
    tagValue? cs = (handle? (skipBlanks cs)).bind fun (handle, closed, rest) =>
      expansion? handle closed rest := rfl

theorem expansion?_append (ht : AllFiller t) (h : EndsSolid cs) (handle : List Char) (closed : Bool) :
    expansion? handle closed (cs ++ t) = (expansion? handle closed cs).map (extend t) := by
  unfold expansion?
  split
  · by_cases hne : cs = []
    · subst hne
      rw [List.nil_append, address?_of_filler (allFiller_skipBlanks ht)]
      cases t with
      | nil => rfl
      | cons c t =>
          simp only [Option.bind_none, ite_self]
          rfl
    · obtain ⟨c, more, rfl⟩ := List.exists_cons_of_ne_nil hne
      rw [skipBlanks_append h hne, address?_append ht]
      simp only [List.cons_append]
      split
      · cases address? true (skipBlanks (c :: more)) with
        | none => rfl
        | some found =>
            simp only [Option.map_some, Option.bind_some, extend, startsGap_append ht]
            split <;> rfl
      · rfl
  · rfl

theorem tagValue?_append (ht : AllFiller t) (h : EndsSolid cs) :
    tagValue? (cs ++ t) = (tagValue? cs).map (extend t) := by
  rw [tagValue?_eq, tagValue?_eq]
  by_cases hne : cs = []
  · rw [hne, List.nil_append, handle?_of_filler (allFiller_skipBlanks ht)]
    rfl
  · rw [skipBlanks_append h hne, handle?_append ht]
    rcases hh : handle? (skipBlanks cs) with _ | ⟨handle, closed, rest⟩
    · rfl
    · have hs := (suffix_of_handle? hh).trans (suffix_skipBlanks cs)
      exact expansion?_append ht (h.of_suffix hs) handle closed

theorem directive?_append (ht : AllFiller t) (h : EndsSolid cs) :
    directive? (cs ++ t) = (directive? cs).map (extend t) := by
  have hs := h.of_suffix (suffix_spanName cs)
  unfold directive?
  rw [spanName_append ht]
  generalize spanName cs = found at hs
  simp only [extend, startsGap_append ht, versionValue?_append ht hs, tagValue?_append ht hs]
  repeat' split
  all_goals rfl

end Stencil.Yaml
