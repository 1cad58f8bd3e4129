import Stencil.Proofs.Yaml.Behind.Property

/-!
# Plain and quoted scalars in front of fillers

Where a reader stops inside a text, it finds the same with fillers behind the text (`Goes.inside`); where it runs
to the end, it may take some of the fillers, too (`Goes.atEnd`). A plain scalar drops those it takes, and no
quote is closed by fillers.

Main statement: `goes_plain`.
-/

namespace Stencil.Yaml

open Stencil.Text

variable {cs t : List Char} {c : Char}

/-! ## At the end of a text -/

/-- How reading goes on a text with fillers behind it: as on the text alone where it stops inside the text, and
with something alike where it runs to the end, so that only fillers are left, and no tabs among them. -/
inductive Goes {α : Type} (t : List Char) (alike : α → α → Prop) :
    Option (α × List Char) → Option (α × List Char) → Prop where
  | refused : Goes t alike none none
  | inside (a : α) (rest : List Char) : Goes t alike (some (a, rest)) (some (a, rest ++ t))
  | atEnd {a b : α} {rest : List Char} (hab : alike a b) (hr : rest <:+ t) (htab : '\t' ∉ rest) :
      Goes t alike (some (a, [])) (some (b, rest))

theorem goes_extend {α : Type} {alike : α → α → Prop} (found : Option (α × List Char)) :
    Goes t alike found (found.map (extend t)) := by
  cases found with
  | none => exact .refused
  | some found => exact .inside found.1 found.2

theorem goes_nil {α : Type} {alike : α → α → Prop} {a b : α} (hab : alike a b) :
    Goes t alike (some (a, [])) (some (b, [])) := .atEnd hab List.nil_suffix List.not_mem_nil

theorem Goes.map {α β : Type} {alike : α → α → Prop} {alike' : β → β → Prop}
    {found found' : Option (α × List Char)} (h : Goes t alike found found') (f : α → β)
    (hf : ∀ a b, alike a b → alike' (f a) (f b)) :
    Goes t alike' (found.map fun p => (f p.1, p.2)) (found'.map fun p => (f p.1, p.2)) := by
  cases h with
  | refused => exact .refused
  | inside a rest => exact .inside (f a) rest
  | atEnd hab hr htab => exact .atEnd (hf _ _ hab) hr htab

/-! ## Plain and quoted scalars -/

theorem leavesPlain_append (ht : AllFiller t) (flow : Bool) (margin : Nat) (column : Option Nat)
    (cs : List Char) : leavesPlain flow margin column (cs ++ t) = leavesPlain flow margin column cs := by
  cases column with
  | none => rfl
  | some k => simp only [leavesPlain, startsDocumentMark_append ht]

theorem strayColon_append (ht : AllFiller t) (flow : Bool) (c : Char) (cs : List Char) :
    strayColon flow c (cs ++ t) = strayColon flow c cs := by
  cases cs with
  | cons d cs => rfl
  | nil =>
      cases t with
      | nil => rfl
      | cons d t =>
          have hd : (isFlowIndicator d || d == '?') = false := by
            simpa using of_isGap (p := fun d => !(isFlowIndicator d || d == '?')) (by decide)
              (ht d List.mem_cons_self)
          simp only [strayColon, List.nil_append, hd]

theorem endsPlain_append (ht : AllFiller t) (flow afterGap : Bool) (c : Char) (cs : List Char) :
    endsPlain flow afterGap c (cs ++ t) = endsPlain flow afterGap c cs := by
  simp only [endsPlain, startsGap_append ht]

/-- Fillers are no part of a plain scalar, as long as no tab follows a line end. -/
theorem exists_plain_of_filler (ht : AllFiller t) (flow : Bool) (margin : Nat) {gap : Gap}
    (htab : gap.column? = none ∧ TabsFirst t ∨ '\t' ∉ t) (afterGap : Bool) :
    ∃ broken, plain flow margin gap afterGap t = some ⟨[], [], broken⟩ := by
  induction t generalizing gap afterGap with
  | nil => exact ⟨gap.isBroken, rfl⟩
  | cons c t ih =>
      obtain ⟨hc, ht⟩ := List.forall_mem_cons.mp ht
      have hbehind : isBreak c = true → '\t' ∉ t := fun hb => by
        have hmem : '\t' ∉ c :: t := htab.elim (fun h => (tabsFirst_cons_of_break hb).mp h.2) id
        exact fun h => hmem (List.mem_cons_of_mem c h)
      unfold plain
      split
      · rename_i hr
        refine ih ht (.inr (hbehind ?_)) true
        simp only [returnsBeforeNewline, Bool.and_eq_true, beq_iff_eq] at hr
        rw [hr.1]
        rfl
      · by_cases hbreak : isBreak c = true
        · have hblank : ¬ isBlank c = true := by
            intro hb
            simp only [isBlank, Bool.or_eq_true, beq_iff_eq] at hb
            rcases hb with rfl | rfl <;> exact absurd hbreak (by decide)
          rw [if_neg hblank, if_pos hbreak]
          exact ih ht (.inr (hbehind hbreak)) true
        · have hblank : isBlank c = true := by
            by_contra hb
            exact hbreak (isBreak_of_isGap hc hb)
          -- A tab could only offend behind a line end, and then there is none.
          have hindent : ¬ (c = '\t' ∧ gap.column?.any (· < margin) = true) := by
            rintro ⟨rfl, hmargin⟩
            rcases htab with ⟨hnone, -⟩ | hmem
            · rw [hnone] at hmargin
              contradiction
            · exact hmem List.mem_cons_self
          rw [if_pos hblank, if_neg hindent]
          refine ih ht (htab.imp (fun h => ⟨?_, (tabsFirst_cons_of_not_break hbreak).mp h.2⟩) fun h hm => ?_) true
          · obtain ⟨hnone, -⟩ := h
            cases gap with
            | blanks text => rfl
            | breaks first more column => cases hnone
          · exact h (List.mem_cons_of_mem c hm)

/-- What was read of a plain scalar, and what is left. -/
def Plain.found (p : Plain) : (List Char × Bool) × List Char := ((p.text, p.broken), p.rest)

/-- **A plain scalar drops the fillers behind it.** -/
theorem goes_plain (ht : AllFiller t) (htab : TabsFirst t) (h : EndsSolid cs) (flow : Bool) (margin : Nat)
    {gap : Gap} (hg : cs = [] → gap.column? = none) (afterGap : Bool) :
    Goes t (fun a b => a.1 = b.1) ((plain flow margin gap afterGap cs).map Plain.found)
      ((plain flow margin gap afterGap (cs ++ t)).map Plain.found) := by
  induction cs generalizing gap afterGap with
  | nil =>
      obtain ⟨broken, he⟩ := exists_plain_of_filler ht flow margin (.inl ⟨hg rfl, htab⟩) afterGap
      rw [List.nil_append, he]
      exact goes_nil rfl
  | cons c cs ih =>
      have ih := @ih h.of_cons
      -- White space is not the end of the text, so whichever gap it makes, more follows.
      have hmore : ∀ {gap : Gap}, isGap c = true → cs = [] → gap.column? = none :=
        fun hc hnil => absurd hnil (ne_nil_of_isGap h hc)
      rw [List.cons_append]
      unfold plain
      rw [returnsBeforeNewline_append h, ← List.cons_append, leavesPlain_append ht, strayColon_append ht,
        endsPlain_append ht]
      split
      · rename_i hr
        simp only [returnsBeforeNewline, Bool.and_eq_true, beq_iff_eq] at hr
        exact ih (hmore (by rw [hr.1]; rfl)) true
      split
      · rename_i hb
        split
        · exact .refused
        · exact ih (hmore (by rw [isGap, hb]; rfl)) true
      split
      · rename_i hb
        exact ih (hmore (by rw [isGap, hb, Bool.or_true])) true
      split
      · exact .inside _ _
      split
      · exact .inside _ _
      split
      · exact .refused
      split
      · exact .inside _ _
      · have hmap : Goes t (fun a b : List Char × Bool => a.1 = b.1) _ _ :=
          (@ih .empty (fun _ => rfl) false).map (fun a => (gap.text ++ c :: a.1, a.2)) fun a b hab => by
            rw [hab]
        rw [Option.map_map, Option.map_map] at hmap ⊢
        exact hmap

theorem meetsDocumentMark_append (ht : AllFiller t) (gap : Gap) (cs : List Char) :
    meetsDocumentMark gap (cs ++ t) = meetsDocumentMark gap cs := by
  simp only [meetsDocumentMark, startsDocumentMark_append ht]

/-- Fillers close no quote. -/
theorem singleQuoted_of_filler (ht : AllFiller t) (gap : Gap) : singleQuoted gap t = none := by
  induction t generalizing gap with
  | nil => rfl
  | cons c t ih =>
      obtain ⟨hc, ht⟩ := List.forall_mem_cons.mp ht
      unfold singleQuoted
      split
      · exact ih ht _
      split
      · exact ih ht _
      split
      · exact ih ht _
      · rename_i hblank hbreak
        exact absurd (isBreak_of_isGap hc hblank) hbreak

theorem singleQuoted_append (ht : AllFiller t) (h : EndsSolid cs) (gap : Gap) :
    singleQuoted gap (cs ++ t) = (singleQuoted gap cs).map (extend t) := by
  -- On the length, as two quotes are read in one step.
  induction hn : cs.length using Nat.strongRecOn generalizing gap cs with
  | ind n ih =>
      cases cs with
      | nil => exact singleQuoted_of_filler ht gap
      | cons c cs =>
          rw [List.length_cons] at hn
          have hcs : ∀ gap, singleQuoted gap (cs ++ t) = (singleQuoted gap cs).map (extend t) := fun gap =>
            ih cs.length (by omega) h.of_cons gap rfl
          rw [List.cons_append, singleQuoted_cons, singleQuoted_cons, returnsBeforeNewline_append h,
            ← List.cons_append, meetsDocumentMark_append ht, hcs, hcs, hcs, hcs]
          split
          · rfl
          split
          · rfl
          split
          · rfl
          split
          · rfl
          split
          · -- A second quote makes it one of the text, and what stands behind the text is no quote.
            by_cases hq : ∃ more, cs = '\'' :: more
            · obtain ⟨more, rfl⟩ := hq
              rw [List.length_cons] at hn
              rw [List.cons_append, afterQuote_cons, afterQuote_cons,
                ih more.length (by omega) h.of_cons.of_cons .empty rfl, Option.map_map, Option.map_map]
              rfl
            · have hne : ∀ more, cs ≠ '\'' :: more := fun more he => hq ⟨more, he⟩
              have hne' : ∀ more, cs ++ t ≠ '\'' :: more := by
                intro more he
                cases cs with
                | nil => exact ne_cons_of_filler ht (by decide) more he
                | cons d cs => exact hne cs (by rw [(List.cons.inj he).1])
              rw [afterQuote_of_ne hne, afterQuote_of_ne hne']
              rfl
          · rw [Option.map_map, Option.map_map]
            rfl

/-- Fillers close no quote, and an escape of fillers stands for no quote. -/
theorem doubleQuoted_of_filler (ht : AllFiller t) (place : Place) : doubleQuoted place t = none := by
  induction t generalizing place with
  | nil => rfl
  | cons c t ih =>
      obtain ⟨hc, ht⟩ := List.forall_mem_cons.mp ht
      unfold doubleQuoted
      split
      · split
        · exact ih ht _
        split
        · exact ih ht _
        split
        · exact ih ht _
        · rename_i hblank hbreak
          exact absurd (isBreak_of_isGap hc hblank) hbreak
      · simp only [ih ht]
        repeat' split
        all_goals rfl
      · rw [hexDigit?_of_isGap hc]

theorem doubleQuoted_append (ht : AllFiller t) (h : EndsSolid cs) (place : Place) :
    doubleQuoted place (cs ++ t) = (doubleQuoted place cs).map (extend t) := by
  induction cs generalizing place with
  | nil => exact doubleQuoted_of_filler ht place
  | cons c cs ih =>
      have ih := ih h.of_cons
      rw [List.cons_append]
      unfold doubleQuoted
      rw [returnsBeforeNewline_append h]
      simp only [← List.cons_append, meetsDocumentMark_append ht, ih]
      repeat' split
      all_goals first | rfl | (rw [Option.map_map, Option.map_map]; rfl)

end Stencil.Yaml
