/-!
# Blank characters

White space as Unicode defines it, and cutting it from the ends of a text. Everything the library
calls blank — input values, lines, keys — goes through this one predicate.

Main statements: a trimmed text starts and ends with no blank (`head?_trim`, `getLast?_trim`), and a
text is blank exactly when nothing is left of it (`trim_eq_nil_iff`).
-/

namespace Stencil.Text

/-- The characters of the property White_Space. -/
def isBlank (c : Char) : Bool :=
  (0x09 ≤ c.toNat && c.toNat ≤ 0x0D) || c.toNat == 0x20 || c.toNat == 0x85 || c.toNat == 0xA0
    || c.toNat == 0x1680 || (0x2000 ≤ c.toNat && c.toNat ≤ 0x200A)
    || c.toNat == 0x2028 || c.toNat == 0x2029 || c.toNat == 0x202F || c.toNat == 0x205F
    || c.toNat == 0x3000

/-- Drops the blanks a text starts with. -/
def trimStart (cs : List Char) : List Char := cs.dropWhile isBlank

/-- Drops the blanks a text ends with. -/
def trimEnd (cs : List Char) : List Char := (cs.reverse.dropWhile isBlank).reverse

/-- Drops the blanks at both ends of a text. -/
def trim (cs : List Char) : List Char := trimEnd (trimStart cs)

/-! ## What trimming leaves -/

@[simp] theorem trimStart_nil : trimStart [] = [] := rfl

@[simp] theorem trimEnd_nil : trimEnd [] = [] := rfl

@[simp] theorem trim_nil : trim [] = [] := rfl

theorem trimStart_cons (c : Char) (cs : List Char) :
    trimStart (c :: cs) = if isBlank c then trimStart cs else c :: cs := by
  simp [trimStart, List.dropWhile_cons]

theorem trimStart_append_of_blank {s : List Char} (h : ∀ c ∈ s, isBlank c = true) (t : List Char) :
    trimStart (s ++ t) = trimStart t := by
  induction s with
  | nil => rfl
  | cons c s ih =>
      have hc : isBlank c = true := h c (by simp)
      have hs : ∀ d ∈ s, isBlank d = true := fun d hd => h d (by simp [hd])
      simp [trimStart_cons, hc, ih hs]

theorem trimStart_eq_nil_iff {cs : List Char} :
    trimStart cs = [] ↔ ∀ c ∈ cs, isBlank c = true := by
  induction cs with
  | nil => simp
  | cons c cs ih => by_cases h : isBlank c = true <;> simp [trimStart_cons, h, ih]

theorem trimEnd_eq_nil_iff {cs : List Char} :
    trimEnd cs = [] ↔ ∀ c ∈ cs, isBlank c = true := by
  have h : trimEnd cs = [] ↔ trimStart cs.reverse = [] := by simp [trimEnd, trimStart]
  simp [h, trimStart_eq_nil_iff]

theorem head?_trimStart (cs : List Char) {c : Char} (h : (trimStart cs).head? = some c) :
    isBlank c = false := by
  induction cs with
  | nil => simp at h
  | cons d cs ih =>
      rw [trimStart_cons] at h
      split at h
      · exact ih h
      · simp_all

theorem getLast?_trimEnd {cs : List Char} {c : Char} (h : (trimEnd cs).getLast? = some c) :
    isBlank c = false := by
  refine head?_trimStart cs.reverse ?_
  simpa [trimEnd, trimStart] using h

theorem trimEnd_isPrefixOf (cs : List Char) : trimEnd cs <+: cs := by
  have h : cs.reverse.dropWhile isBlank <:+ cs.reverse := List.dropWhile_suffix _
  simpa [trimEnd] using List.reverse_prefix.mpr h

theorem trimStart_isSuffixOf (cs : List Char) : trimStart cs <:+ cs := List.dropWhile_suffix _

/-- **A trimmed text starts with no blank.** -/
theorem head?_trim {cs : List Char} {c : Char} (h : (trim cs).head? = some c) :
    isBlank c = false := by
  refine head?_trimStart cs ?_
  obtain ⟨t, ht⟩ := trimEnd_isPrefixOf (trimStart cs)
  rw [← ht]
  unfold trim at h
  rw [List.head?_append, h]
  rfl

/-- **A trimmed text ends with no blank.** -/
theorem getLast?_trim {cs : List Char} {c : Char} (h : (trim cs).getLast? = some c) :
    isBlank c = false := getLast?_trimEnd h

/-- **Nothing is left of a text exactly when it is blank.** -/
theorem trim_eq_nil_iff {cs : List Char} : trim cs = [] ↔ ∀ c ∈ cs, isBlank c = true := by
  unfold trim
  rw [trimEnd_eq_nil_iff]
  constructor
  · intro h
    rw [← trimStart_eq_nil_iff]
    cases hs : trimStart cs with
    | nil => rfl
    | cons c r =>
        have hb : isBlank c = false := head?_trimStart cs (by simp [hs])
        have := h c (by simp [hs])
        simp [hb] at this
  · intro h c hc
    exact h c ((trimStart_isSuffixOf cs).subset hc)

/-! ## On strings -/

/-- A string without the blanks at its ends. -/
def trimmed (s : String) : String := String.ofList (trim s.toList)

/-- Whether a string holds nothing but blanks. -/
def isBlankText (s : String) : Bool := s.toList.all isBlank

theorem isBlankText_iff {s : String} : isBlankText s = true ↔ trim s.toList = [] := by
  simp [isBlankText, trim_eq_nil_iff]

end Stencil.Text
