import Stencil.Command
import Stencil.Proofs.Inputs.Lookup

/-!
# Which input goes before which

A command answers for an input itself, by a switch; then the file of variables does, which holds the variables
and nothing else; then the file of inputs; and last the environment. The first answer that is not blank counts,
without the blanks around it. So no input that is collected is blank, and no format ever rejects the variables
of a run for being empty.

The template comes first. Where both of its inputs are blank everywhere the run fails for want of a template,
and no source is asked for the variables: whatever they are, and whether they can be read at all, shows in
nothing.

Main statement: `collect_precedence`.
-/

namespace Stencil

open Text

namespace Command

/-- The value that a command gives to an input by a switch. -/
def switched? (c : Command) (input : String) : Option String :=
  if input = Input.templateText then c.templateText
  else if input = Input.templateFile then c.templateFile.map Path.text
  else if input = Input.templateVars then c.templateVars
  else none

/-- What the file of variables answers for an input. It is not read for any but the variables. -/
def variablesAnswer (fs : Files) (stdin : Content) (file : Path) (input : String) : Answer :=
  if input = Input.templateVars then (Source.variablesText fs stdin file).map some else .ok none

/-- What the file of inputs answers for an input under which it has a value, if it has one. -/
def memberAnswer (input : String) : Option Json → Answer
  | none | some .null => .ok none
  | some (.string text) => .ok (some text)
  | some other => .error (.notText input other.kind)

/-- Whether the file of inputs that a command names, if it names one, holds some members. -/
def Loads (c : Command) (fs : Files) (inputs : Option (Members Json)) : Prop :=
  match c.inputs with
  | none => inputs = none
  | some file => ∃ members, inputs = some members ∧ Source.ofInputsFile fs file = .ok (.inputsFile members)

/-- What there is for an input, in the order in which it counts. -/
def answers (c : Command) (fs : Files) (stdin : Content) (inputs : Option (Members Json))
    (env : Environment) (input : String) : List Answer :=
  [.ok (c.switched? input)]
    ++ (c.varsFile.map fun file => variablesAnswer fs stdin file input).toList
    ++ (inputs.map fun members => memberAnswer input (Members.get? members input)).toList
    ++ [.ok (env.filled? (Environment.inputVariable input))]

variable {c : Command} {fs fs' : Files} {stdin stdin' : Content}
  {inputs inputs' : Option (Members Json)} {env env' : Environment} {input : String}

theorem get?_arguments (c : Command) (input : String) :
    Members.get? c.arguments input = c.switched? input := by
  have htext : Input.templateText ≠ Input.templateFile ∧ Input.templateText ≠ Input.templateVars := by
    decide
  have hfile : Input.templateFile ≠ Input.templateVars := by decide
  unfold arguments switched?
  cases c.templateText <;> cases c.templateFile <;> cases c.templateVars <;>
    simp only [Option.map_none, Option.map_some, Option.toList_none, Option.toList_some,
      List.nil_append, List.cons_append, Members.get?] <;>
    grind

theorem value_arguments (c : Command) (input : String) :
    (Source.arguments c.arguments).value fs stdin input = .ok (c.switched? input) := by
  simp only [Source.value, get?_arguments]

theorem value_variablesFile (file : Path) (input : String) :
    (Source.variablesFile file).value fs stdin input = variablesAnswer fs stdin file input := rfl

theorem value_inputsFile (members : Members Json) (input : String) :
    (Source.inputsFile members).value fs stdin input
      = memberAnswer input (Members.get? members input) := by
  simp only [Source.value]
  cases Members.get? members input with
  | none => rfl
  | some v => cases v <;> rfl

theorem value_environment (env : Environment) (input : String) :
    (Source.environment env).value fs stdin input
      = .ok (env.filled? (Environment.inputVariable input)) := rfl

/-- **A command has its sources** once its file of inputs is loaded, and they answer in order. -/
theorem sources_of_loads (h : c.Loads fs inputs) (stdin : Content) (env : Environment) :
    ∃ sources, c.sources fs env = .ok sources
      ∧ ∀ input, answersOf fs stdin sources input = c.answers fs stdin inputs env input := by
  cases hinputs : c.inputs with
  | none =>
      obtain rfl : inputs = none := by simpa only [Loads, hinputs] using h
      simp only [sources, hinputs]
      refine ⟨_, rfl, fun input => ?_⟩
      cases hfile : c.varsFile <;>
        simp [answersOf, answers, hfile, value_arguments, value_variablesFile, value_environment]
  | some file =>
      obtain ⟨members, rfl, hload⟩ : ∃ members, inputs = some members
          ∧ Source.ofInputsFile fs file = .ok (.inputsFile members) := by
        simpa only [Loads, hinputs] using h
      simp only [sources, hinputs, hload]
      refine ⟨_, rfl, fun input => ?_⟩
      cases hfile : c.varsFile <;>
        simp [answersOf, answers, hfile, value_arguments, value_variablesFile, value_inputsFile,
          value_environment]

/-- What a file of inputs holds under a name. -/
def heldUnder (inputs : Option (Members Json)) (name : String) : Option Json :=
  inputs.bind fun members => Members.get? members name

/-- **What there is for another input than the variables** depends on what the file of inputs and the
environment hold for it alone. -/
theorem answers_congr (h : c.Loads fs inputs) (h' : c.Loads fs' inputs')
    (hinput : input ≠ Input.templateVars) (hheld : heldUnder inputs' input = heldUnder inputs input)
    (hvar : env'.var? (Environment.inputVariable input) = env.var? (Environment.inputVariable input)) :
    c.answers fs' stdin' inputs' env' input = c.answers fs stdin inputs env input := by
  have hmembers : (inputs'.map fun members => memberAnswer input (Members.get? members input))
      = inputs.map fun members => memberAnswer input (Members.get? members input) := by
    unfold Loads at h h'
    cases hfile : c.inputs with
    | none =>
        simp only [hfile] at h h'
        rw [h, h']
    | some file =>
        simp only [hfile] at h h'
        obtain ⟨members, rfl, -⟩ := h
        obtain ⟨members', rfl, -⟩ := h'
        exact congrArg (fun v => some (memberAnswer input v)) hheld
  have hfilled : env'.filled? (Environment.inputVariable input)
      = env.filled? (Environment.inputVariable input) := by
    rw [Environment.filled?, hvar, Environment.filled?]
  simp only [answers, hmembers, hfilled, variablesAnswer, if_neg hinput]

end Command

/-- Only a blank text is rejected for being empty. -/
theorem Format.read_eq_empty_iff {f : Format} {text : String} :
    f.read text = .error .empty ↔ isBlankText text = true := by
  cases hb : isBlankText text with
  | true => simp [read, hb]
  | false =>
      have hmembers : f.members text ≠ .error .empty := by
        cases f <;> simp only [members, jsonMembers, yamlMembers, yamlValueMembers, keyValueMembers] <;>
          repeat' split
        all_goals simp
      simp only [read, hb, Bool.false_eq_true, if_false, iff_false]
      split
      · rename_i rejection hr
        intro h
        cases h
        exact hmembers hr
      · split <;> simp

namespace Command

variable {c : Command} {fs : Files} {inputs : Option (Members Json)}

/-- **Which values a run is given.** A command has its sources as soon as its file of inputs is loaded. What is
collected from them is the first answer for each input that is not blank, the text of a template going before
the file of one, and no format rejects the variables for being empty. If there is no template, the run fails for
want of one, and does so too whatever the file of variables, the file of inputs and the environment hold for the
variables. -/
theorem collect_precedence (h : c.Loads fs inputs) (stdin : Content) (env : Environment) :
    ∃ sources, c.sources fs env = .ok sources
      ∧ (∀ i, Inputs.collect fs stdin sources = .ok i →
          ((∃ text, Answer.FirstFilled (c.answers fs stdin inputs env Input.templateText) text
                ∧ i.template = .inline text)
            ∨ (Answer.AllBlank (c.answers fs stdin inputs env Input.templateText)
              ∧ ∃ path, Answer.FirstFilled (c.answers fs stdin inputs env Input.templateFile) path
                ∧ i.template = .file ⟨path⟩))
          ∧ Answer.FirstFilled (c.answers fs stdin inputs env Input.templateVars) i.vars
          ∧ isBlankText i.vars = false ∧ ∀ f : Format, f.read i.vars ≠ .error .empty)
      ∧ (Answer.AllBlank (c.answers fs stdin inputs env Input.templateText) →
          Answer.AllBlank (c.answers fs stdin inputs env Input.templateFile) →
          Inputs.collect fs stdin sources
              = .error (.missingInput [Input.templateText, Input.templateFile])
            ∧ ∀ fs' stdin' env' inputs', c.Loads fs' inputs' →
              (∀ name, name ≠ Input.templateVars → heldUnder inputs' name = heldUnder inputs name) →
              (∀ name, name ≠ Environment.inputVariable Input.templateVars →
                Environment.var? env' name = env.var? name) →
              ∃ sources', c.sources fs' env' = .ok sources'
                ∧ Inputs.collect fs' stdin' sources' = Inputs.collect fs stdin sources) := by
  obtain ⟨sources, hsources, hanswers⟩ := sources_of_loads h stdin env
  refine ⟨sources, hsources, fun i hi => ?_, fun htext hfile => ?_⟩
  · -- What is collected depends on the answers for the three inputs and on nothing else.
    rw [Inputs.collect_eq, hanswers, hanswers, hanswers] at hi
    obtain ⟨text, path, htext, hpath, hchosen, hvars⟩ := Inputs.of_ofAnswers hi
    have hfilled := Answer.first_eq_some_iff.mp hvars
    have hblank := hfilled.isBlankText_eq_false
    refine ⟨?_, hfilled, hblank, fun f hf => ?_⟩
    · match text, path with
      | some text, _ =>
          exact .inl ⟨text, Answer.first_eq_some_iff.mp htext, (Except.ok.inj hchosen).symm⟩
      | none, some path =>
          exact .inr ⟨Answer.first_eq_none_iff.mp htext, path, Answer.first_eq_some_iff.mp hpath,
            (Except.ok.inj hchosen).symm⟩
      | none, none => cases hchosen
    · rw [Format.read_eq_empty_iff.mp hf] at hblank
      contradiction
  · -- Two blank answers for the template are enough, so this holds of any other run that gives the same two.
    have hmissing : ∀ fs' stdin' sources',
        answersOf fs' stdin' sources' Input.templateText
            = c.answers fs stdin inputs env Input.templateText →
        answersOf fs' stdin' sources' Input.templateFile
            = c.answers fs stdin inputs env Input.templateFile →
        Inputs.collect fs' stdin' sources'
          = .error (.missingInput [Input.templateText, Input.templateFile]) := by
      intro fs' stdin' sources' ht hp
      rw [Inputs.collect_eq, ht, hp, Answer.first_eq_none_iff.mpr htext,
        Answer.first_eq_none_iff.mpr hfile]
      rfl
    have hown := hmissing fs stdin sources (hanswers _) (hanswers _)
    refine ⟨hown, fun fs' stdin' env' inputs' h' hheld hvar => ?_⟩
    obtain ⟨sources', hsources', hanswers'⟩ := sources_of_loads h' stdin' env'
    refine ⟨sources', hsources', ?_⟩
    rw [hown]
    apply hmissing
    · rw [hanswers']
      exact answers_congr h h' (by decide) (hheld _ (by decide)) (hvar _ (by decide +kernel))
    · rw [hanswers']
      exact answers_congr h h' (by decide) (hheld _ (by decide)) (hvar _ (by decide +kernel))

/-- A command that names a file of inputs and has a blank switch. -/
def halfGiven : Command where
  templateText := some " "
  templateFile := none
  templateVars := none
  varsFile := some ⟨"vars"⟩
  inputs := some ⟨"step.json"⟩
  output := none
  format := none
  escapes := true
  verbosity := ⟨0, false⟩

/-- The text of a file of inputs in which the variables are null. -/
def halfText : String := "\x7b\"template-text\": \"\\tHi \", \"template-vars\": null\x7d"

/-- The members of that file. -/
def halfNamed : Members Json := [("template-text", .string "\tHi "), ("template-vars", .null)]

/-- That file and a blank file of variables. -/
def halfFilled : Files :=
  ((Files.empty []).add ⟨"vars"⟩ (.file (.text " \n"))).add ⟨"step.json"⟩ (.file (.text halfText))

/-- An environment that holds the variables. -/
def filledIn : Environment := [("INPUT_TEMPLATE-VARS", "a: 1\n")]

theorem loads_halfFilled : halfGiven.Loads halfFilled (some halfNamed) := by
  have hread : halfFilled.read ⟨"step.json"⟩ = .ok halfText := ok_of_toOption (by decide +kernel)
  have hjson : Source.isJsonFile ⟨"step.json"⟩ = true := by decide +kernel
  have hparse : Json.parse? halfText = some (.object halfNamed) := rfl
  refine ⟨halfNamed, rfl, ?_⟩
  simp only [Source.ofInputsFile, Source.textOfFile, hread, Source.ofInputsText, hjson, if_true, hparse]

theorem collect_precedence_halfGiven :
    halfGiven.Loads halfFilled (some halfNamed)
      ∧ ∃ sources, halfGiven.sources halfFilled filledIn = .ok sources
        ∧ Inputs.collect halfFilled (.text "") sources = .ok ⟨.inline "Hi", "a: 1"⟩
        ∧ Answer.FirstFilled
            (halfGiven.answers halfFilled (.text "") (some halfNamed) filledIn Input.templateVars)
            "a: 1" := by
  obtain ⟨sources, hsources, hcollected, -⟩ := collect_precedence loads_halfFilled (.text "") filledIn
  have hboth : ((halfGiven.sources halfFilled filledIn).toOption.bind fun s =>
      (Inputs.collect halfFilled (.text "") s).toOption) = some ⟨.inline "Hi", "a: 1"⟩ := by
    decide +kernel
  rw [hsources] at hboth
  have hi : Inputs.collect halfFilled (.text "") sources = .ok ⟨.inline "Hi", "a: 1"⟩ :=
    ok_of_toOption hboth
  exact ⟨loads_halfFilled, sources, hsources, hi, (hcollected _ hi).2.1⟩

end Command

end Stencil
