import Mathlib.Data.List.Forall2
import Stencil.Proofs.Inputs.Lookup

/-!
# What the file of a template can do to a run that has its text

A text wins over a file, but the file is looked up all the same. Two runs whose sources differ in what they hold
for the file of the template, and in nothing else, are given the same answers for the other two inputs
(`answersOf_congr`). So they collect the same, be it inputs or a failure, unless one of them finds something
that can not name a file: a file of inputs that comes before every file name and holds a value which is no text
(`firstFails_iff`). Then that run fails for this value.

Main statement: `collect_congr_of_text`.
-/

namespace Stencil

open Text

variable {fs : Files} {stdin : Content} {s t : Source} {sources others : List Source} {input other : String}

/-- Whether two sources are the same but for what they hold for an input. -/
inductive Source.DiffersOnly (input : String) : Source → Source → Prop
  | arguments {values values' : Members String}
      (h : ∀ name, name ≠ input → Members.get? values' name = Members.get? values name) :
      DiffersOnly input (.arguments values) (.arguments values')
  | variablesFile (file : Path) : DiffersOnly input (.variablesFile file) (.variablesFile file)
  | inputsFile {values values' : Members Json}
      (h : ∀ name, name ≠ input → Members.get? values' name = Members.get? values name) :
      DiffersOnly input (.inputsFile values) (.inputsFile values')
  | environment {env env' : Environment}
      (h : ∀ name, name ≠ Environment.inputVariable input →
        Environment.var? env' name = Environment.var? env name) :
      DiffersOnly input (.environment env) (.environment env')

/-- Sources that differ for one input answer alike for another that the runner holds in another variable. -/
theorem Source.DiffersOnly.value_eq (h : DiffersOnly input s t) (hne : other ≠ input)
    (hvar : Environment.inputVariable other ≠ Environment.inputVariable input) :
    t.value fs stdin other = s.value fs stdin other := by
  cases h with
  | arguments h => simp only [value, h other hne]
  | variablesFile => rfl
  | inputsFile h => simp only [value, h other hne]
  | environment h => simp only [value, Environment.filled?, h _ hvar]

theorem answersOf_congr (h : List.Forall₂ (Source.DiffersOnly input) sources others) (hne : other ≠ input)
    (hvar : Environment.inputVariable other ≠ Environment.inputVariable input) :
    answersOf fs stdin others other = answersOf fs stdin sources other := by
  unfold answersOf
  induction h with
  | nil => rfl
  | cons hst _ ih => rw [List.map_cons, List.map_cons, hst.value_eq hne hvar, ih]

/-- Whether a value is the first thing but blanks that sources have for an input, and is no text: a file of
inputs holds it. -/
def Obstructs (fs : Files) (stdin : Content) (sources : List Source) (input : String) (v : Json) : Prop :=
  ∃ before values after, sources = before ++ .inputsFile values :: after
    ∧ (∀ s ∈ before, s.isBlankFor fs stdin input = true)
    ∧ Members.get? values input = some v ∧ v ≠ .null ∧ ∀ text, v ≠ .string text

/-- **Only a file of inputs fails** for an input that a file of variables does not hold. -/
theorem Source.value_eq_error_iff (hne : input ≠ Input.templateVars) {f : Failure} :
    s.value fs stdin input = .error f
      ↔ ∃ values v, s = .inputsFile values ∧ Members.get? values input = some v
        ∧ v ≠ .null ∧ (∀ text, v ≠ .string text) ∧ f = .notText input v.kind := by
  cases s with
  | arguments values => simp [value]
  | variablesFile file => simp [value, hne]
  | environment env => simp [value]
  | inputsFile values =>
      simp only [value]
      cases hv : Members.get? values input with
      | none => simp [hv]
      | some v => cases v <;> simp [hv, eq_comm]

/-- A search fails exactly where a value obstructs it. -/
theorem firstFails_iff (hne : input ≠ Input.templateVars) {f : Failure} :
    Answer.FirstFails (answersOf fs stdin sources input) f
      ↔ ∃ v, Obstructs fs stdin sources input v ∧ f = .notText input v.kind := by
  unfold Answer.FirstFails answersOf Obstructs
  constructor
  · rintro ⟨before, after, hsplit, hblank⟩
    obtain ⟨passed, rest, rfl, rfl, hrest⟩ := List.map_eq_append_iff.mp hsplit
    obtain ⟨s, later, rfl, hs, rfl⟩ := List.map_eq_cons_iff.mp hrest
    obtain ⟨values, v, rfl, hget, hnull, htext, rfl⟩ := (Source.value_eq_error_iff hne).mp hs
    exact ⟨v, ⟨passed, values, later, rfl, fun s hs => hblank _ (List.mem_map_of_mem hs), hget, hnull, htext⟩,
      rfl⟩
  · rintro ⟨v, ⟨before, values, after, rfl, hblank, hget, hnull, htext⟩, rfl⟩
    refine ⟨before.map fun s => s.value fs stdin input, after.map fun s => s.value fs stdin input, ?_, ?_⟩
    · rw [List.map_append, List.map_cons,
        (Source.value_eq_error_iff hne).mpr ⟨values, v, rfl, hget, hnull, htext, rfl⟩]
    · rintro a ha
      obtain ⟨s, hs, rfl⟩ := List.mem_map.mp ha
      exact hblank s hs

namespace Inputs

/-- A run that has the text of its template and no trouble with its file is given that text, whatever the
file is. -/
theorem ofAnswers_text {text : String} (file : Option String) {vars : Answer} :
    ofAnswers (.ok (some text)) (.ok file) vars = ofAnswers (.ok (some text)) (.ok none) vars := rfl

theorem ofAnswers_file_error {text : Option String} {f : Failure} {vars : Answer} :
    ofAnswers (.ok text) (.error f) vars = .error f := rfl

/-- **What is held for the file of the template** does not matter to a run that has its text: another run that
differs in nothing else collects the same. The exception is a value that is no text, in a file of inputs that
comes before any file name. It fails its run. -/
theorem collect_congr_of_text {found : Found}
    (htext : lookup fs stdin sources Input.templateText = .ok (some found))
    (h : List.Forall₂ (Source.DiffersOnly Input.templateFile) sources others) :
    ((∀ v, ¬ Obstructs fs stdin sources Input.templateFile v) →
        (∀ v, ¬ Obstructs fs stdin others Input.templateFile v) →
        collect fs stdin others = collect fs stdin sources)
      ∧ (∀ v, Obstructs fs stdin sources Input.templateFile v →
        collect fs stdin sources = .error (.notText Input.templateFile v.kind))
      ∧ ∀ v, Obstructs fs stdin others Input.templateFile v →
        collect fs stdin others = .error (.notText Input.templateFile v.kind) := by
  have hne : Input.templateFile ≠ Input.templateVars := by decide
  have hfirst : Answer.first (answersOf fs stdin sources Input.templateText) = .ok (some found.value) := by
    rw [← lookup_value, htext]
    rfl
  -- The sources differ under the template's file only, so that they answer alike for the other two inputs.
  have hsame : answersOf fs stdin others Input.templateText = answersOf fs stdin sources Input.templateText :=
    answersOf_congr h (by decide) (by decide +kernel)
  have hvars : answersOf fs stdin others Input.templateVars = answersOf fs stdin sources Input.templateVars :=
    answersOf_congr h (by decide) (by decide +kernel)
  have hfound : ∀ l : List Source, (∀ v, ¬ Obstructs fs stdin l Input.templateFile v) →
      ∃ file, Answer.first (answersOf fs stdin l Input.templateFile) = .ok file := by
    intro l hl
    cases hr : Answer.first (answersOf fs stdin l Input.templateFile) with
    | ok file => exact ⟨file, rfl⟩
    | error f =>
        obtain ⟨v, hv, -⟩ := (firstFails_iff hne).mp (Answer.first_eq_error_iff.mp hr)
        exact absurd hv (hl v)
  have hfails : ∀ l : List Source, ∀ v, Obstructs fs stdin l Input.templateFile v →
      Answer.first (answersOf fs stdin l Input.templateFile)
        = .error (.notText Input.templateFile v.kind) :=
    fun l v hv => Answer.first_eq_error_iff.mpr ((firstFails_iff hne).mpr ⟨v, hv, rfl⟩)
  refine ⟨fun hsources hothers => ?_, fun v hv => ?_, fun v hv => ?_⟩
  · -- Whichever files are found, if any, the text goes before them.
    obtain ⟨file, hfile⟩ := hfound sources hsources
    obtain ⟨file', hfile'⟩ := hfound others hothers
    rw [collect_eq, collect_eq, hsame, hvars, hfirst, hfile, hfile', ofAnswers_text file',
      ofAnswers_text file]
  · rw [collect_eq, hfirst, hfails sources v hv, ofAnswers_file_error]
  · rw [collect_eq, hsame, hfirst, hfails others v hv, ofAnswers_file_error]

/-- Sources that give a template and its variables, and hold a value for the file of the template. -/
def greeting (held : Json) (path : String) : List Source :=
  [.arguments [(Input.templateText, " Hi "), (Input.templateVars, "a: 1")], .variablesFile ⟨"vars"⟩,
    .inputsFile [(Input.templateFile, held)], .environment [("INPUT_TEMPLATE-FILE", path)]]

theorem greeting_differsOnly (held held' : Json) (path path' : String) :
    List.Forall₂ (Source.DiffersOnly Input.templateFile) (greeting held path) (greeting held' path') := by
  have hvar : Environment.inputVariable Input.templateFile = "INPUT_TEMPLATE-FILE" := by decide +kernel
  refine .cons (.arguments fun _ _ => rfl) (.cons (.variablesFile _) (.cons (.inputsFile ?_)
    (.cons (.environment ?_) .nil)))
  · intro name hname
    simp [Members.get?, hname.symm]
  · intro name hname
    rw [hvar] at hname
    simp [Environment.var?, Members.get?, hname.symm]

theorem lookup_greeting (held : Json) (path : String) :
    lookup (Files.empty []) (.text "") (greeting held path) Input.templateText
      = .ok (some ⟨"Hi", .arguments [(Input.templateText, " Hi "), (Input.templateVars, "a: 1")]⟩) := by
  have htrim : isBlankText " Hi " = false ∧ trimmed " Hi " = "Hi" := by decide +kernel
  simp [lookup, greeting, Source.value, Members.get?, htrim]

theorem collect_congr_of_text_greeting :
    collect (Files.empty []) (.text "") (greeting (.string " ") "") = .ok ⟨.inline "Hi", "a: 1"⟩
      ∧ collect (Files.empty []) (.text "") (greeting .null "page")
        = collect (Files.empty []) (.text "") (greeting (.string " ") "")
      ∧ collect (Files.empty []) (.text "") (greeting (.bool true) "page")
        = .error (.notText Input.templateFile .boolean) := by
  have hnone : ∀ held path, (∃ file, Answer.first (answersOf (Files.empty []) (.text "")
      (greeting held path) Input.templateFile) = .ok file) →
      ∀ v, ¬ Obstructs (Files.empty []) (.text "") (greeting held path) Input.templateFile v := by
    rintro held path ⟨file, hfile⟩ v hv
    have := Answer.first_eq_error_iff.mpr ((firstFails_iff (by decide)).mpr ⟨v, hv, rfl⟩)
    rw [hfile] at this
    cases this
  have htext := lookup_greeting (.string " ") ""
  refine ⟨ok_of_toOption (by decide +kernel), ?_, ?_⟩
  · exact (collect_congr_of_text htext (greeting_differsOnly _ .null "" "page")).1
      (hnone _ _ ⟨none, ok_of_toOption (by decide +kernel)⟩)
      (hnone _ _ ⟨some "page", ok_of_toOption (by decide +kernel)⟩)
  · exact (collect_congr_of_text htext (greeting_differsOnly _ (.bool true) "" "page")).2.2 _
      ⟨[_, _], _, _, rfl, by decide +kernel, rfl, nofun, nofun⟩

/-- A file of inputs that names the file of the template by a number fails a run that has its text. -/
theorem collect_greeting_numbered :
    ¬ ∀ (fs : Files) (stdin : Content) (sources others : List Source) (found : Found),
      lookup fs stdin sources Input.templateText = .ok (some found) →
      List.Forall₂ (Source.DiffersOnly Input.templateFile) sources others →
      collect fs stdin others = collect fs stdin sources := by
  intro h
  have hsame := h _ _ _ _ _ (lookup_greeting .null "") (greeting_differsOnly _ (.number (.int 42)) "" "")
  have hvalue : (collect (Files.empty []) (.text "") (greeting .null "")).toOption
      = some ⟨.inline "Hi", "a: 1"⟩ := by
    decide +kernel
  have hnumber : (collect (Files.empty []) (.text "") (greeting (.number (.int 42)) "")).toOption = none := by
    decide +kernel
  rw [hsame, hvalue] at hnumber
  cases hnumber

end Inputs

end Stencil
