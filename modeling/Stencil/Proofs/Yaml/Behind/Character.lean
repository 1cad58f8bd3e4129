import Stencil.Proofs.Text.Trim
import Stencil.Yaml.Token.Character

/-!
# Fillers behind a text

White space at which words end. It stands for no token, so that a text is often read the same when it stands
behind it. What a reader asks of the characters that follow is the same behind the last word of a text, where
nothing follows, as in front of fillers.

A tab is a filler, too, but may not stand where a line is indented: it does no harm on the line of the last word
(`TabsFirst`).
-/

namespace Stencil.Yaml

open Stencil.Text

/-- Whether a text holds nothing but blanks and line ends. -/
def AllFiller (cs : List Char) : Prop := ∀ c ∈ cs, isGap c = true

instance (cs : List Char) : Decidable (AllFiller cs) := List.decidableBAll _ cs

/-- Whether tabs stand on the first line of a text only. -/
def TabsFirst (cs : List Char) : Prop := '\t' ∉ cs.dropWhile (!isBreak ·)

instance (cs : List Char) : Decidable (TabsFirst cs) := inferInstanceAs (Decidable ('\t' ∉ _))

variable {cs t : List Char} {c : Char}

theorem tabsFirst_cons_of_break (hc : isBreak c = true) : TabsFirst (c :: t) ↔ '\t' ∉ c :: t := by
  rw [TabsFirst, List.dropWhile_cons_of_neg (by simp [hc])]

theorem tabsFirst_cons_of_not_break (hc : ¬ isBreak c = true) : TabsFirst (c :: t) ↔ TabsFirst t := by
  rw [TabsFirst, List.dropWhile_cons_of_pos (by simp [hc])]
  rfl

def fillers : List Char := [' ', '\t', '\n', '\r', '\u0085', '\u2028', '\u2029']

theorem isGap_iff : isGap c = true ↔ c ∈ fillers := by
  have hcode : ∀ n : Nat, c.toNat = n → c = Char.ofNat n := by
    rintro n rfl
    rw [Char.ofNat_toNat]
  simp only [fillers, List.mem_cons, List.not_mem_nil, or_false]
  constructor
  · intro h
    simp only [isGap, isBlank, isBreak, Bool.or_eq_true, beq_iff_eq] at h
    rcases h with (h | h) | (((h | h) | h) | h) | h
    · exact .inl h
    · exact .inr (.inl h)
    · exact .inr (.inr (.inl h))
    · exact .inr (.inr (.inr (.inl h)))
    · exact .inr (.inr (.inr (.inr (.inl (hcode _ h)))))
    · exact .inr (.inr (.inr (.inr (.inr (.inl (hcode _ h))))))
    · exact .inr (.inr (.inr (.inr (.inr (.inr (hcode _ h))))))
  · rintro (rfl | rfl | rfl | rfl | rfl | rfl | rfl) <;> decide

theorem of_isGap {p : Char → Bool} (hp : fillers.all p = true) (h : isGap c = true) :
    p c = true := List.all_eq_true.mp hp c (isGap_iff.mp h)

/-- A filler has no printed form. -/
theorem ne_of_isGap (h : isGap c = true) {d : Char} (hd : d ∉ fillers) : c ≠ d := by
  rintro rfl
  exact hd (isGap_iff.mp h)

/-- A filler that is no blank ends a line. -/
theorem isBreak_of_isGap (h : isGap c = true) (hb : ¬ Yaml.isBlank c = true) : isBreak c = true :=
  ((Bool.or_eq_true _ _).mp h).resolve_left hb

theorem isBlank_of_isGap (h : isGap c = true) : Text.isBlank c = true := of_isGap (by decide) h

theorem isAllowed_of_isGap (h : isGap c = true) : isAllowed c = true := of_isGap (by decide) h

/-! ## What follows -/

theorem startsGap_append (ht : AllFiller t) (cs : List Char) : startsGap (cs ++ t) = startsGap cs := by
  cases cs with
  | cons c cs => rfl
  | nil =>
      cases t with
      | nil => rfl
      | cons d t => exact ht d List.mem_cons_self

/-- A text does not end with a filler. -/
theorem ne_nil_of_isGap (h : EndsSolid (c :: cs)) (hc : isGap c = true) : cs ≠ [] := by
  rintro rfl
  have hsolid := h c rfl
  rw [isBlank_of_isGap hc] at hsolid
  contradiction

/-- A carriage return at the end of a text could belong to a newline behind it. -/
theorem returnsBeforeNewline_append (h : EndsSolid (c :: cs)) (t : List Char) :
    returnsBeforeNewline c (cs ++ t) = returnsBeforeNewline c cs := by
  cases cs with
  | cons d cs => rfl
  | nil =>
      have hc : c ≠ '\r' := by
        rintro rfl
        exact absurd (h '\r' rfl) (by decide)
      simp [returnsBeforeNewline, hc]

theorem startsDocumentMark_cons (a b c : Char) (cs : List Char) :
    startsDocumentMark (a :: b :: c :: cs)
      = ((a == '-' && b == '-' && c == '-' || a == '.' && b == '.' && c == '.') && startsGap cs) := by
  by_cases hh : a = '-' ∧ b = '-' ∧ c = '-'
  · obtain ⟨rfl, rfl, rfl⟩ := hh
    rfl
  · by_cases hp : a = '.' ∧ b = '.' ∧ c = '.'
    · obtain ⟨rfl, rfl, rfl⟩ := hp
      rfl
    · have hno : (a == '-' && b == '-' && c == '-' || a == '.' && b == '.' && c == '.') = false := by
        rw [Bool.eq_false_iff]
        intro h
        simp only [Bool.or_eq_true, Bool.and_eq_true, beq_iff_eq, and_assoc] at h
        exact h.elim hh hp
      rw [hno, Bool.false_and]
      unfold startsDocumentMark
      split
      · rename_i he
        simp only [List.cons.injEq] at he
        exact absurd ⟨he.1, he.2.1, he.2.2.1⟩ hh
      · rename_i he
        simp only [List.cons.injEq] at he
        exact absurd ⟨he.1, he.2.1, he.2.2.1⟩ hp
      · rfl

theorem length_of_startsDocumentMark (h : startsDocumentMark cs = true) : 3 ≤ cs.length := by
  match cs with
  | [] | [_] | [_, _] => simp [startsDocumentMark] at h
  | _ :: _ :: _ :: _ => simp

theorem startsDocumentMark_append (ht : AllFiller t) (cs : List Char) :
    startsDocumentMark (cs ++ t) = startsDocumentMark cs := by
  have hfiller : ∀ c ∈ t, c ≠ '-' ∧ c ≠ '.' := fun c hc =>
    ⟨ne_of_isGap (ht c hc) (by decide), ne_of_isGap (ht c hc) (by decide)⟩
  match cs with
  | [] => cases t <;> simp_all [startsDocumentMark]
  | [a] => cases t <;> simp_all [startsDocumentMark]
  | [a, b] => cases t <;> simp_all [startsDocumentMark]
  | a :: b :: c :: cs =>
      rw [List.cons_append, List.cons_append, List.cons_append, startsDocumentMark_cons,
        startsDocumentMark_cons, startsGap_append ht]

end Stencil.Yaml
