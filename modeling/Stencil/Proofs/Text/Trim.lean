import Stencil.Text.Blank

/-!
# What trimming leaves

A text is its blanks in front, what trimming leaves of it, and its blanks behind. What is left starts
and ends with no blank, and there is only one way to cut a text so.

Main statement: `trim_eq_iff`.
-/

namespace Stencil.Text

/-- Whether a text holds nothing but blanks. -/
def AllBlank (cs : List Char) : Prop := ∀ c ∈ cs, isBlank c = true

/-- Whether the first character of a text, if it has one, is no blank. -/
def StartsSolid (cs : List Char) : Prop := ∀ c, cs.head? = some c → isBlank c = false

/-- Whether the last character of a text, if it has one, is no blank. -/
def EndsSolid (cs : List Char) : Prop := ∀ c, cs.getLast? = some c → isBlank c = false

/-- Whether a text is another without the blanks at both ends. -/
def IsTrim (cs core : List Char) : Prop :=
  ∃ lead trail, cs = lead ++ core ++ trail ∧ AllBlank lead ∧ AllBlank trail
    ∧ StartsSolid core ∧ EndsSolid core

@[simp] theorem allBlank_nil : AllBlank [] := by simp [AllBlank]

@[simp] theorem startsSolid_cons {c : Char} {cs : List Char} :
    StartsSolid (c :: cs) ↔ isBlank c = false := by simp [StartsSolid]

theorem endsSolid_iff_reverse {cs : List Char} : EndsSolid cs ↔ StartsSolid cs.reverse := by
  simp [EndsSolid, StartsSolid]

theorem EndsSolid.of_suffix {cs rest : List Char} (h : EndsSolid cs) (hs : rest <:+ cs) :
    EndsSolid rest := by
  obtain ⟨front, rfl⟩ := hs
  intro c hc
  refine h c ?_
  rw [List.getLast?_append, hc, Option.some_or]

theorem EndsSolid.of_cons {c : Char} {cs : List Char} (h : EndsSolid (c :: cs)) : EndsSolid cs :=
  h.of_suffix (List.suffix_cons c cs)

/-! ## The front -/

theorem trimStart_of_startsSolid {cs : List Char} (h : StartsSolid cs) : trimStart cs = cs := by
  cases cs with
  | nil => rfl
  | cons c cs => simp [trimStart_cons, startsSolid_cons.mp h]

theorem trimStart_append_cons {c : Char} (hc : isBlank c = false) (cs rest : List Char) :
    trimStart (cs ++ c :: rest) = trimStart cs ++ c :: rest := by
  induction cs with
  | nil => exact trimStart_of_startsSolid (startsSolid_cons.mpr hc)
  | cons d cs ih =>
      rw [List.cons_append, trimStart_cons, trimStart_cons]
      split
      · exact ih
      · rfl

theorem trimStart_append {lead cs : List Char} (hl : AllBlank lead) (hc : StartsSolid cs) :
    trimStart (lead ++ cs) = cs := by
  rw [trimStart_append_of_blank hl, trimStart_of_startsSolid hc]

/-- What trimming drops at the front. -/
theorem exists_append_trimStart (cs : List Char) :
    ∃ lead, AllBlank lead ∧ cs = lead ++ trimStart cs := by
  refine ⟨cs.takeWhile isBlank, ?_, (List.takeWhile_append_dropWhile).symm⟩
  exact List.all_eq_true.mp List.all_takeWhile

theorem startsSolid_trimStart (cs : List Char) : StartsSolid (trimStart cs) :=
  fun _ h => head?_trimStart cs h

/-! ## Both ends -/

theorem trimEnd_append {cs trail : List Char} (hc : EndsSolid cs) (ht : AllBlank trail) :
    trimEnd (cs ++ trail) = cs := by
  have hr : AllBlank trail.reverse := fun c hc => ht c (List.mem_reverse.mp hc)
  have h := trimStart_append hr (endsSolid_iff_reverse.mp hc)
  unfold trimEnd
  unfold trimStart at h
  rw [List.reverse_append, h, List.reverse_reverse]

/-- What trimming drops at the end. -/
theorem exists_trimEnd_append (cs : List Char) :
    ∃ trail, AllBlank trail ∧ cs = trimEnd cs ++ trail := by
  obtain ⟨lead, hl, he⟩ := exists_append_trimStart cs.reverse
  refine ⟨lead.reverse, fun c hc => hl c (List.mem_reverse.mp hc), ?_⟩
  calc cs = cs.reverse.reverse := (List.reverse_reverse cs).symm
    _ = (lead ++ trimStart cs.reverse).reverse := by rw [← he]
    _ = trimEnd cs ++ lead.reverse := by rw [List.reverse_append]; rfl

/-- **What trimming leaves of a text** is the one text between its blanks in front and behind. -/
theorem trim_eq_iff {cs core : List Char} : trim cs = core ↔ IsTrim cs core := by
  constructor
  · rintro rfl
    obtain ⟨lead, hl, hs⟩ := exists_append_trimStart cs
    obtain ⟨trail, ht, he⟩ := exists_trimEnd_append (trimStart cs)
    refine ⟨lead, trail, ?_, hl, ht, fun c => head?_trim, fun c => getLast?_trim⟩
    rw [List.append_assoc, trim, ← he, ← hs]
  · rintro ⟨lead, trail, rfl, hl, ht, hs, he⟩
    rw [trim, List.append_assoc, trimStart_append_of_blank hl]
    cases core with
    | nil =>
        rw [trimEnd_eq_nil_iff, List.nil_append]
        exact fun c hc => ht c ((trimStart_isSuffixOf trail).subset hc)
    | cons c core =>
        have hc : StartsSolid (c :: core ++ trail) := startsSolid_cons.mpr (startsSolid_cons.mp hs)
        rw [trimStart_of_startsSolid hc, trimEnd_append he ht]

theorem trim_trimStart (cs : List Char) : trim (trimStart cs) = trim cs := by
  rw [trim, trimStart_of_startsSolid (startsSolid_trimStart cs), trim]

/-! ## Trimming more than once -/

/-- Trimming a second time changes nothing. -/
@[simp] theorem trim_trim (cs : List Char) : trim (trim cs) = trim cs := by
  obtain ⟨-, -, -, -, -, hs, he⟩ := trim_eq_iff.mp (rfl : trim cs = trim cs)
  exact trim_eq_iff.mpr ⟨[], [], by simp, allBlank_nil, allBlank_nil, hs, he⟩

@[simp] theorem toList_trimmed (text : String) : (trimmed text).toList = trim text.toList := by
  rw [trimmed, String.toList_ofList]

@[simp] theorem isBlankText_trimmed (text : String) :
    isBlankText (trimmed text) = isBlankText text := by
  rw [Bool.eq_iff_iff, isBlankText_iff, isBlankText_iff, toList_trimmed, trim_trim]

/-! ## Blanks behind a text -/

variable {tail : List Char}

theorem not_mem_of_allBlank (ht : AllBlank tail) {c : Char} (hc : isBlank c = false) : c ∉ tail := by
  intro hm
  rw [ht c hm] at hc
  contradiction

theorem trimStart_append_eq (cs tail : List Char) :
    trimStart (cs ++ tail) = if trimStart cs = [] then trimStart tail else trimStart cs ++ tail := by
  unfold trimStart
  rw [List.dropWhile_append]
  simp only [List.isEmpty_iff]

theorem trimStart_append_of_allBlank (ht : AllBlank tail) {cs : List Char} (h : trimStart cs = []) :
    trimStart (cs ++ tail) = [] := by
  rw [trimStart_append_eq, if_pos h, trimStart_eq_nil_iff]
  exact ht

theorem trimStart_append_of_ne (tail : List Char) {cs : List Char} (h : trimStart cs ≠ []) :
    trimStart (cs ++ tail) = trimStart cs ++ tail := by
  rw [trimStart_append_eq, if_neg h]

theorem trim_append_allBlank (ht : AllBlank tail) (cs : List Char) : trim (cs ++ tail) = trim cs := by
  obtain ⟨lead, trail, he, hl, hr, hs, hw⟩ := trim_eq_iff.mp (rfl : trim cs = trim cs)
  refine trim_eq_iff.mpr ⟨lead, trail ++ tail, ?_, hl, List.forall_mem_append.mpr ⟨hr, ht⟩, hs, hw⟩
  rw [← List.append_assoc, ← he]

end Stencil.Text
