import Stencil.Inputs.Lookup
import Stencil.Proofs.Text.Trim

/-!
# Which source decides

A source is passed over when it has nothing for an input, or nothing but blanks. The first that is not passed over
decides: the search comes to what that source has, a text without the blanks around it or a failure
(`lookup_cons_of_not_blank`). So there are as many outcomes as there are answers of one source, and the sources
behind the one that decides are never asked.

Main statement: `lookup_outcomes`.
-/

namespace Stencil

open Text

variable {fs : Files} {stdin : Content} {s : Source} {before after sources : List Source} {input : String}

/-- What a search comes to in which a source decides. -/
def Source.outcome (fs : Files) (stdin : Content) (s : Source) (input : String) :
    Except Failure (Option Found) :=
  (s.value fs stdin input).map (Option.map fun text => ⟨trimmed text, s⟩)

/-- Whether a condition holds of the first of some sources that is not passed over. -/
def FirstAsked (fs : Files) (stdin : Content) (sources : List Source) (input : String) (p : Source → Prop) : Prop :=
  ∃ before s after, sources = before ++ s :: after ∧ (∀ t ∈ before, t.isBlankFor fs stdin input = true)
    ∧ s.isBlankFor fs stdin input = false ∧ p s

/-- A source is not passed over when it fails, and when something is left of what it has. -/
theorem Source.isBlankFor_eq_false_iff :
    s.isBlankFor fs stdin input = false
      ↔ (∃ f, s.value fs stdin input = .error f)
        ∨ ∃ text, s.value fs stdin input = .ok (some text) ∧ isBlankText text = false := by
  unfold isBlankFor
  cases s.value fs stdin input with
  | error f => simp
  | ok answer => cases answer <;> simp

theorem isBlankText_eq_false_iff {text : String} : isBlankText text = false ↔ trimmed text ≠ "" := by
  refine ⟨trimmed_ne_empty, fun h => Bool.eq_false_iff.mpr fun hblank => h ?_⟩
  rw [trimmed, isBlankText_iff.mp hblank]

/-- **The source that decides** is the first that is not passed over. -/
theorem lookup_cons_of_not_blank (h : s.isBlankFor fs stdin input = false) (after : List Source) :
    lookup fs stdin (s :: after) input = s.outcome fs stdin input := by
  rw [lookup, Source.outcome]
  rcases Source.isBlankFor_eq_false_iff.mp h with ⟨f, hf⟩ | ⟨text, htext, hblank⟩
  · rw [hf]
    rfl
  · rw [htext]
    dsimp only
    rw [hblank, if_neg Bool.false_ne_true]
    rfl

theorem lookup_of_asked (hbefore : ∀ t ∈ before, t.isBlankFor fs stdin input = true)
    (hs : s.isBlankFor fs stdin input = false) (after : List Source) :
    lookup fs stdin (before ++ s :: after) input = s.outcome fs stdin input := by
  rw [lookup_append_of_blank hbefore, lookup_cons_of_not_blank hs]

theorem lookup_of_forall_blank (h : ∀ t ∈ sources, t.isBlankFor fs stdin input = true) :
    lookup fs stdin sources input = .ok none := by
  rw [← List.append_nil sources, lookup_append_of_blank h, lookup]

/-- Either all sources are passed over, or there is a first that is not. -/
theorem forall_blank_or_firstAsked (fs : Files) (stdin : Content) (sources : List Source) (input : String) :
    (∀ t ∈ sources, t.isBlankFor fs stdin input = true)
      ∨ FirstAsked fs stdin sources input fun s =>
          lookup fs stdin sources input = s.outcome fs stdin input := by
  cases hfind : sources.find? fun s => !s.isBlankFor fs stdin input with
  | none => exact .inl (by simpa using hfind)
  | some s =>
      obtain ⟨hs, before, after, rfl, hbefore⟩ := List.find?_eq_some_iff_append.mp hfind
      have hblank : ∀ t ∈ before, t.isBlankFor fs stdin input = true := by simpa using hbefore
      have hasked : s.isBlankFor fs stdin input = false := by simpa using hs
      exact .inr ⟨before, s, after, rfl, hblank, hasked, lookup_of_asked hblank hasked after⟩

/-- The first source that is not passed over tells the outcome. -/
theorem lookup_eq_iff_firstAsked {outcome : Except Failure (Option Found)} (h : outcome ≠ .ok none) :
    lookup fs stdin sources input = outcome
      ↔ FirstAsked fs stdin sources input fun s => s.outcome fs stdin input = outcome := by
  constructor
  · intro hlookup
    rcases forall_blank_or_firstAsked fs stdin sources input with hall | ⟨before, s, after, rfl, hblank, hs, hout⟩
    · exact absurd (hlookup.symm.trans (lookup_of_forall_blank hall)) h
    · exact ⟨before, s, after, rfl, hblank, hs, hout.symm.trans hlookup⟩
  · rintro ⟨before, s, after, rfl, hblank, hs, hout⟩
    rw [lookup_of_asked hblank hs, hout]

theorem Source.outcome_eq_some_iff {found : Found} :
    s.outcome fs stdin input = .ok (some found)
      ↔ ∃ text, s.value fs stdin input = .ok (some text) ∧ found = ⟨trimmed text, s⟩ := by
  unfold outcome
  cases s.value fs stdin input with
  | error f => simp [Except.map]
  | ok answer => cases answer <;> simp [Except.map, eq_comm]

theorem Source.outcome_eq_error_iff {f : Failure} :
    s.outcome fs stdin input = .error f ↔ s.value fs stdin input = .error f := by
  unfold outcome
  cases s.value fs stdin input <;> simp [Except.map]

/-! ## Outcomes -/

theorem lookup_eq_some_iff {found : Found} :
    lookup fs stdin sources input = .ok (some found)
      ↔ ∃ before s after text, sources = before ++ s :: after
        ∧ (∀ t ∈ before, t.isBlankFor fs stdin input = true) ∧ s.value fs stdin input = .ok (some text)
        ∧ trimmed text ≠ "" ∧ found = ⟨trimmed text, s⟩ := by
  rw [lookup_eq_iff_firstAsked (by simp)]
  constructor
  · rintro ⟨before, s, after, hsplit, hblank, hs, hout⟩
    obtain ⟨text, htext, rfl⟩ := Source.outcome_eq_some_iff.mp hout
    have hsolid : isBlankText text = false := by
      rcases Source.isBlankFor_eq_false_iff.mp hs with ⟨f, hf⟩ | ⟨other, hother, hsolid⟩
      · rw [htext] at hf
        cases hf
      · rw [htext] at hother
        cases hother
        exact hsolid
    exact ⟨before, s, after, text, hsplit, hblank, htext, isBlankText_eq_false_iff.mp hsolid, rfl⟩
  · rintro ⟨before, s, after, text, hsplit, hblank, htext, hne, rfl⟩
    have hs := Source.isBlankFor_eq_false_iff.mpr (.inr ⟨text, htext, isBlankText_eq_false_iff.mpr hne⟩)
    exact ⟨before, s, after, hsplit, hblank, hs, Source.outcome_eq_some_iff.mpr ⟨text, htext, rfl⟩⟩

theorem lookup_eq_error_iff {f : Failure} :
    lookup fs stdin sources input = .error f
      ↔ ∃ before s after, sources = before ++ s :: after
        ∧ (∀ t ∈ before, t.isBlankFor fs stdin input = true) ∧ s.value fs stdin input = .error f := by
  rw [lookup_eq_iff_firstAsked (by simp)]
  constructor
  · rintro ⟨before, s, after, hsplit, hblank, -, hout⟩
    exact ⟨before, s, after, hsplit, hblank, Source.outcome_eq_error_iff.mp hout⟩
  · rintro ⟨before, s, after, hsplit, hblank, hf⟩
    have hs := Source.isBlankFor_eq_false_iff.mpr (.inl ⟨f, hf⟩)
    exact ⟨before, s, after, hsplit, hblank, hs, Source.outcome_eq_error_iff.mpr hf⟩

theorem lookup_eq_none_iff :
    lookup fs stdin sources input = .ok none ↔ ∀ t ∈ sources, t.isBlankFor fs stdin input = true := by
  refine ⟨fun h => ?_, lookup_of_forall_blank⟩
  rcases forall_blank_or_firstAsked fs stdin sources input with hall | ⟨before, s, after, -, -, hs, hout⟩
  · exact hall
  · -- The source that decides has a text or fails.
    rw [h] at hout
    rcases Source.isBlankFor_eq_false_iff.mp hs with ⟨f, hf⟩ | ⟨text, htext, -⟩
    · rw [Source.outcome, hf] at hout
      cases hout
    · rw [Source.outcome, htext] at hout
      cases hout

/-- **Sources behind one that is not passed over** have no influence. -/
theorem lookup_congr_behind (hs : s.isBlankFor fs stdin input = false) (before after others : List Source) :
    lookup fs stdin (before ++ s :: others) input = lookup fs stdin (before ++ s :: after) input := by
  induction before with
  | nil => rw [List.nil_append, List.nil_append, lookup_cons_of_not_blank hs, lookup_cons_of_not_blank hs]
  | cons t before ih =>
      cases ht : t.isBlankFor fs stdin input with
      | true => rw [List.cons_append, List.cons_append, lookup_cons_of_blank ht, lookup_cons_of_blank ht, ih]
      | false =>
          rw [List.cons_append, List.cons_append, lookup_cons_of_not_blank ht, lookup_cons_of_not_blank ht]

/-- What is found is a text with no blanks around it. -/
theorem solid_of_lookup {found : Found} (h : lookup fs stdin sources input = .ok (some found)) :
    StartsSolid found.value.toList ∧ EndsSolid found.value.toList := by
  obtain ⟨-, -, -, text, -, -, -, -, rfl⟩ := lookup_eq_some_iff.mp h
  rw [toList_trimmed]
  exact ⟨fun c => head?_trim, fun c => getLast?_trim⟩

/-- A file of inputs fails for a value that is no text, unless it is null. -/
theorem Source.value_of_not_text {values : Members Json} {v : Json} (hv : Members.get? values input = some v)
    (hnull : v ≠ .null) (htext : ∀ text, v ≠ .string text) :
    (Source.inputsFile values).value fs stdin input = .error (.notText input v.kind) := by
  rw [value, hv]
  cases v with
  | null => contradiction
  | string text => exact absurd rfl (htext text)
  | bool | number | array | object => rfl

/-- **What a search comes to.** It finds a text in the first source that is not passed over, and gives it without
the blanks around it, of which something is left. It fails as that source does if it fails, and it finds nothing
just when all sources are passed over. Behind a source that is not passed over any others may stand, and a value in
a file of inputs that is no text is a failure whatever stands behind that file. -/
theorem lookup_outcomes (fs : Files) (stdin : Content) (sources : List Source) (input : String) :
    (∀ found, lookup fs stdin sources input = .ok (some found)
        ↔ ∃ before s after text, sources = before ++ s :: after
          ∧ (∀ t ∈ before, t.isBlankFor fs stdin input = true) ∧ s.value fs stdin input = .ok (some text)
          ∧ trimmed text ≠ "" ∧ found = ⟨trimmed text, s⟩)
      ∧ (∀ found, lookup fs stdin sources input = .ok (some found) →
          found.value ≠ "" ∧ StartsSolid found.value.toList ∧ EndsSolid found.value.toList)
      ∧ (∀ f, lookup fs stdin sources input = .error f
        ↔ ∃ before s after, sources = before ++ s :: after
          ∧ (∀ t ∈ before, t.isBlankFor fs stdin input = true) ∧ s.value fs stdin input = .error f)
      ∧ (lookup fs stdin sources input = .ok none ↔ ∀ t ∈ sources, t.isBlankFor fs stdin input = true)
      ∧ (∀ before s after, sources = before ++ s :: after → s.isBlankFor fs stdin input = false →
          ∀ others, lookup fs stdin (before ++ s :: others) input = lookup fs stdin sources input)
      ∧ ∀ before values after v, sources = before ++ .inputsFile values :: after →
          (∀ t ∈ before, t.isBlankFor fs stdin input = true) → Members.get? values input = some v →
          v ≠ .null → (∀ text, v ≠ .string text) →
          lookup fs stdin sources input = .error (.notText input v.kind) := by
  refine ⟨fun _ => lookup_eq_some_iff, fun found h => ⟨value_ne_empty_of_lookup h, solid_of_lookup h⟩,
    fun _ => lookup_eq_error_iff, lookup_eq_none_iff, ?_, ?_⟩
  · rintro before s after rfl hs others
    exact lookup_congr_behind hs before after others
  · intro before values after v hsplit hblank hv hnull htext
    exact lookup_eq_error_iff.mpr ⟨before, _, after, hsplit, hblank, Source.value_of_not_text hv hnull htext⟩

/-- Sources of the variables: two that are passed over, a file of inputs that holds a value, and an environment that
has a text. -/
def contested (held : Json) : List Source :=
  [.arguments [(Input.templateVars, "\t\n")], .inputsFile [(Input.templateVars, .null)],
    .inputsFile [(Input.templateVars, held)], .environment [("INPUT_TEMPLATE-VARS", " a: 1\n")]]

theorem lookup_outcomes_contested :
    lookup (Files.empty []) (.text "") (contested (.number (.int 42))) Input.templateVars
        = .error (.notText Input.templateVars .number)
      ∧ lookup (Files.empty []) (.text "") (contested (.string " ")) Input.templateVars
        = .ok (some ⟨"a: 1", .environment [("INPUT_TEMPLATE-VARS", " a: 1\n")]⟩) := by
  have hblank : ∀ t ∈ [Source.arguments [(Input.templateVars, "\t\n")], .inputsFile [(Input.templateVars, .null)]],
      t.isBlankFor (Files.empty []) (.text "") Input.templateVars = true := by
    decide +kernel
  have hall : ∀ t ∈ [Source.arguments [(Input.templateVars, "\t\n")], .inputsFile [(Input.templateVars, .null)],
      .inputsFile [(Input.templateVars, .string " ")]],
      t.isBlankFor (Files.empty []) (.text "") Input.templateVars = true := by
    decide +kernel
  have hvalue : Source.value (Files.empty []) (.text "") (.environment [("INPUT_TEMPLATE-VARS", " a: 1\n")])
      Input.templateVars = .ok (some " a: 1\n") := congrArg Except.ok (by decide +kernel)
  have htrim : trimmed " a: 1\n" = "a: 1" := by decide +kernel
  constructor
  · exact (lookup_outcomes (Files.empty []) (.text "") (contested (.number (.int 42))) Input.templateVars).2.2.2.2.2
      _ _ [.environment [("INPUT_TEMPLATE-VARS", " a: 1\n")]] _ rfl hblank rfl nofun nofun
  · refine ((lookup_outcomes (Files.empty []) (.text "") (contested (.string " ")) Input.templateVars).1 _).mpr
      ⟨_, _, [], _, rfl, hall, hvalue, ?_, ?_⟩
    · rw [htrim]
      decide
    · rw [htrim]

end Stencil
