import Stencil.Inputs.Source

/-!
# Looking inputs up

Sources are asked in order. The first value that is not blank is taken, without the blanks around it; a
source that fails ends the search, and so the sources after the one that decides do not matter.

Main statements: what is found is neither empty nor has blanks at its ends (`value_ne_empty_of_lookup`),
and sources that have nothing but blanks make no difference (`lookup_append_of_blank`).
-/

namespace Stencil

/-- A value that was found and the source that has it. -/
structure Found where
  value : String
  source : Source

/-- Looks an input up. -/
def lookup (fs : Files) (stdin : Content) : List Source → String → Except Failure (Option Found)
  | [], _ => .ok none
  | s :: rest, input =>
      match s.value fs stdin input with
      | .error f => .error f
      | .ok none => lookup fs stdin rest input
      | .ok (some text) =>
          if Text.isBlankText text then lookup fs stdin rest input
          else .ok (some ⟨Text.trimmed text, s⟩)

/-- The sources that are passed over because what they have is blank. -/
def passedOver (fs : Files) (stdin : Content) : List Source → String → List Source
  | [], _ => []
  | s :: rest, input =>
      match s.value fs stdin input with
      | .error _ => []
      | .ok none => passedOver fs stdin rest input
      | .ok (some text) =>
          if Text.isBlankText text then s :: passedOver fs stdin rest input else []

/-- Whether a source has nothing for an input that could be taken. -/
def Source.isBlankFor (fs : Files) (stdin : Content) (s : Source) (input : String) : Bool :=
  match s.value fs stdin input with
  | .ok none => true
  | .ok (some text) => Text.isBlankText text
  | .error _ => false

/-! ## What a search finds -/

variable {fs : Files} {stdin : Content}

theorem lookup_cons_of_blank {s : Source} {input : String}
    (h : s.isBlankFor fs stdin input = true) (rest : List Source) :
    lookup fs stdin (s :: rest) input = lookup fs stdin rest input := by
  unfold Source.isBlankFor at h
  simp only [lookup]
  cases hv : s.value fs stdin input with
  | error f => simp [hv] at h
  | ok found =>
      cases found with
      | none => rfl
      | some text => simp only [hv] at h; simp [h]

/-- **Sources that have nothing but blanks make no difference.** -/
theorem lookup_append_of_blank {before : List Source} {input : String}
    (h : ∀ s ∈ before, s.isBlankFor fs stdin input = true) (rest : List Source) :
    lookup fs stdin (before ++ rest) input = lookup fs stdin rest input := by
  induction before with
  | nil => rfl
  | cons s before ih =>
      rw [List.cons_append, lookup_cons_of_blank (h s (by simp)), ih fun t ht => h t (by simp [ht])]

theorem trimmed_ne_empty {text : String} (h : Text.isBlankText text = false) :
    Text.trimmed text ≠ "" := by
  intro e
  have ht : Text.trim text.toList = [] := by
    have := congrArg String.toList e
    simpa [Text.trimmed] using this
  rw [Text.isBlankText_iff.mpr ht] at h
  contradiction

/-- **What is found is not empty.** -/
theorem value_ne_empty_of_lookup {sources : List Source} {input : String} {found : Found}
    (h : lookup fs stdin sources input = .ok (some found)) : found.value ≠ "" := by
  induction sources with
  | nil => simp [lookup] at h
  | cons s rest ih =>
      unfold lookup at h
      split at h
      · contradiction
      · exact ih h
      · split at h
        · exact ih h
        · rename_i text _ hb
          simp only [Except.ok.injEq, Option.some.injEq] at h
          rw [← h]
          exact trimmed_ne_empty (by simpa using hb)

end Stencil
