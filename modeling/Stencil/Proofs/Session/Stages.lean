import Stencil.Session

/-!
# The stages of a run

A run goes through stages in a fixed order, and each of them needs what the ones before it have made. The
first stage that fails decides how the run ends: no stage after it has begun, so nothing that is wrong there
can show. Only the last stage writes, and so a run that fails before leaves no file behind and prints
nothing but its failure.

**Theorem (`run_of_stages`).** Let a command line be a command. If the run reaches a stage and the stage
fails, then the run ends with that failure, with its exit code and its message. The exit code is zero
exactly when the run reaches the end.

The proof compares two ways to go through the stages, as far as one can get (`Reaches`) and to the end of
the run (`Ends`). What is reached lies on the way to the end (`ends_of_reaches`), and the way to the end is
the way that the run takes (`ends_outcome`).
-/

namespace Stencil.Session

/-! ## Stages -/

/-- The stages of a run, in order. -/
inductive Stage where
  /-- The file of inputs is loaded. -/
  | inputsFile
  | templateText
  | templateFile
  /-- One of the two is required. -/
  | templateChoice
  /-- The variables are looked up and required. -/
  | variablesText
  /-- The template is read, from its file if it has one. -/
  | templateRead
  | resolution
  | rendering
  | publication
  | finished
  deriving DecidableEq

namespace Stage

/-- What a run has when it comes to a stage. -/
abbrev Needs : Stage → Type
  | inputsFile => Unit
  | templateText => List Source
  | templateFile => List Source × Option Found
  | templateChoice => List Source × Option Found × Option Found
  | variablesText => List Source × TemplateSource
  | templateRead => TemplateSource × String
  | resolution => String × String
  | rendering => String × Variables
  | publication => String
  | finished => Outputs

abbrev next : Stage → Stage
  | inputsFile => templateText
  | templateText => templateFile
  | templateFile => templateChoice
  | templateChoice => variablesText
  | variablesText => templateRead
  | templateRead => resolution
  | resolution => rendering
  | rendering => publication
  | publication | finished => finished

variable (c : Command) (s : Circumstances)

/-- What publishing a text leads to. -/
abbrev published (text : String) : Publication :=
  publish text s.delimiters s.files (c.destinations (Runner.ofEnvironment s.environment))

/-- Goes through a stage: it fails, or makes what the next one needs. -/
def perform : (stage : Stage) → stage.Needs → Except Failure stage.next.Needs
  | inputsFile, () => c.sources s.files s.environment
  | templateText, sources =>
      (lookup s.files s.input sources Input.templateText).map fun text => (sources, text)
  | templateFile, (sources, text) =>
      (lookup s.files s.input sources Input.templateFile).map fun file => (sources, text, file)
  | templateChoice, (sources, text, file) =>
      match TemplateSource.choose text file with
      | none => .error (.missingInput [Input.templateText, Input.templateFile])
      | some template => .ok (sources, template)
  | variablesText, (sources, template) =>
      match lookup s.files s.input sources Input.templateVars with
      | .error f => .error f
      | .ok none => .error (.missingInput [Input.templateVars])
      | .ok (some vars) => .ok (template, vars.value)
  | templateRead, (template, vars) => (template.load s.files).map fun text => (text, vars)
  | resolution, (template, vars) =>
      match c.chain.resolve vars with
      | .error u => .error (.unresolved u)
      | .ok resolved => .ok (template, resolved.vars)
  | rendering, (template, vars) => (c.policy.render template vars).mapError Failure.rendering
  | publication, text =>
      match (published c s text).failure with
      | some f => .error f
      | none => .ok (published c s text).outputs
  | finished, o => .ok o

/-- What is written when a stage fails: only publishing writes. -/
def leavings : (stage : Stage) → stage.Needs → Outputs
  | publication, text => (published c s text).outputs
  | _, _ => ⟨s.files, ""⟩

theorem leavings_of_ne {stage : Stage} (h : stage ≠ publication) (x : stage.Needs) :
    stage.leavings c s x = ⟨s.files, ""⟩ := by
  cases stage <;> first | rfl | contradiction

end Stage

/-! ## Ways through the stages -/

section Ways

variable (c : Command) (s : Circumstances)

/-- Whether a run comes to a stage, and what it has then. -/
inductive Reaches : (stage : Stage) → stage.Needs → Prop
  | start : Reaches .inputsFile ()
  | next {stage : Stage} {x : stage.Needs} {y : stage.next.Needs} :
      Reaches stage x → stage.perform c s x = .ok y → Reaches stage.next y

/-- Whether a run from a stage on ends with some outputs, and with which failure. -/
inductive Ends : (stage : Stage) → stage.Needs → Outputs → Option Failure → Prop
  | finished (o : Outputs) : Ends .finished o o none
  | failed {stage : Stage} {x : stage.Needs} {f : Failure} :
      stage.perform c s x = .error f → Ends stage x (stage.leavings c s x) (some f)
  | next {stage : Stage} {x : stage.Needs} {y : stage.next.Needs} {o : Outputs}
      {failure : Option Failure} :
      stage.perform c s x = .ok y → Ends stage.next y o failure → Ends stage x o failure

end Ways

variable {c : Command} {s : Circumstances} {o : Outputs} {failure : Option Failure}

theorem ends_next {stage : Stage} {x : stage.Needs} {y : stage.next.Needs}
    (h : Ends c s stage x o failure) (hy : stage.perform c s x = .ok y) :
    Ends c s stage.next y o failure := by
  cases h with
  | finished =>
      obtain rfl := Except.ok.inj hy
      exact .finished _
  | failed hf => rw [hy] at hf; contradiction
  | next hy' hrest =>
      obtain rfl := Except.ok.inj (hy.symm.trans hy')
      exact hrest

/-- **What is reached lies on the way to the end.** -/
theorem ends_of_reaches {stage : Stage} {x : stage.Needs} (hr : Reaches c s stage x)
    (h : Ends c s .inputsFile () o failure) : Ends c s stage x o failure := by
  induction hr with
  | start => exact h
  | next _ hy ih => exact ends_next ih hy

theorem eq_of_ends_of_error {stage : Stage} {x : stage.Needs} {f : Failure}
    (h : Ends c s stage x o failure) (hf : stage.perform c s x = .error f) :
    o = stage.leavings c s x ∧ failure = some f := by
  cases h with
  | finished => contradiction
  | failed hf' =>
      obtain rfl := Except.error.inj (hf.symm.trans hf')
      exact ⟨rfl, rfl⟩
  | next hy => rw [hf] at hy; contradiction

/-- A run that ends without a failure has reached the end. -/
theorem reaches_finished {stage : Stage} {x : stage.Needs} (hr : Reaches c s stage x)
    (h : Ends c s stage x o none) : ∃ o, Reaches c s .finished o := by
  generalize hfailure : (none : Option Failure) = failure at h
  induction h with
  | finished o => exact ⟨o, hr⟩
  | failed => contradiction
  | next hy _ ih => exact ih (.next hr hy) hfailure

/-- A run at the end has no failure any more. -/
theorem failure_of_finished {stage : Stage} {x : stage.Needs} (hs : stage = .finished)
    (h : Ends c s stage x o failure) : failure = none := by
  induction h with
  | finished => rfl
  | failed hf =>
      subst hs
      contradiction
  | next _ _ ih =>
      subst hs
      exact ih rfl

/-! ## The way of a run -/

/-- Whether a run from a stage on ends in the way that a failure before publishing, or a text that is
published, ends it. -/
def EndsBy (c : Command) (s : Circumstances) (stage : Stage) (x : stage.Needs) :
    Except Failure String → Prop
  | .error f => Ends c s stage x ⟨s.files, ""⟩ (some f)
  | .ok text => Ends c s stage x (Stage.published c s text).outputs (Stage.published c s text).failure

variable {stage : Stage} {x : stage.Needs}

theorem EndsBy.error {f : Failure} (hf : stage.perform c s x = .error f)
    (h : stage ≠ .publication) : EndsBy c s stage x (.error f) := by
  have hend := Ends.failed hf
  rwa [Stage.leavings_of_ne c s h] at hend

theorem EndsBy.next {y : stage.next.Needs} {r : Except Failure String}
    (hy : stage.perform c s x = .ok y) (h : EndsBy c s stage.next y r) :
    EndsBy c s stage x r := by
  cases r with
  | error f => exact Ends.next hy h
  | ok text => exact Ends.next hy h

/-- The rendered text is published. -/
theorem endsBy_publication (text : String) : EndsBy c s .publication text (.ok text) := by
  show Ends c s .publication text _ _
  cases hp : (Stage.published c s text).failure with
  | some f =>
      have hfail : Stage.publication.perform c s text = .error f := by
        simp only [Stage.perform, hp]
      exact .failed hfail
  | none =>
      have hdone : Stage.publication.perform c s text
          = .ok (Stage.published c s text).outputs := by
        simp only [Stage.perform, hp]
      exact .next hdone (.finished _)

/-- From its inputs on, a run fills the template. -/
theorem endsBy_fill (i : Inputs) :
    EndsBy c s .templateRead (i.template, i.vars) (i.fill s.files c.chain c.policy) := by
  unfold Inputs.fill
  cases hload : i.template.load s.files with
  | error f => exact .error (by simp only [Stage.perform, hload]; rfl) (by decide)
  | ok template =>
      have hread : Stage.templateRead.perform c s (i.template, i.vars)
          = .ok (template, i.vars) := by simp only [Stage.perform, hload]; rfl
      refine .next hread ?_
      cases hresolve : c.chain.resolve i.vars with
      | error u => exact .error (by simp only [Stage.perform, hresolve]) (by decide)
      | ok resolved =>
          have hresolved : Stage.resolution.perform c s (template, i.vars)
              = .ok (template, resolved.vars) := by simp only [Stage.perform, hresolve]
          refine .next hresolved ?_
          cases hrender : c.policy.render template resolved.vars with
          | error fault =>
              simp only [hrender]
              exact .error (by simp only [Stage.perform, hrender]; rfl) (by decide)
          | ok text =>
              have hrendered : Stage.rendering.perform c s (template, resolved.vars)
                  = .ok text := by simp only [Stage.perform, hrender]; rfl
              simp only [hrender]
              exact .next hrendered (endsBy_publication text)

/-- From its sources on, a run collects its inputs. -/
theorem endsBy_collect (sources : List Source) :
    EndsBy c s .templateText sources
      ((Inputs.collect s.files s.input sources).bind fun i =>
        i.fill s.files c.chain c.policy) := by
  unfold Inputs.collect Inputs.template?
  -- Each lookup that is made is one stage, in the same order: it ends the run or hands on what it found.
  cases htext : lookup s.files s.input sources Input.templateText with
  | error f => exact .error (by simp only [Stage.perform, htext]; rfl) (by decide)
  | ok text =>
      have h1 : Stage.templateText.perform c s sources = .ok (sources, text) := by
        simp only [Stage.perform, htext]; rfl
      refine .next h1 ?_
      cases hfile : lookup s.files s.input sources Input.templateFile with
      | error f => exact .error (by simp only [Stage.perform, hfile]; rfl) (by decide)
      | ok file =>
          have h2 : Stage.templateFile.perform c s (sources, text)
              = .ok (sources, text, file) := by simp only [Stage.perform, hfile]; rfl
          refine .next h2 ?_
          cases hchoice : TemplateSource.choose text file with
          | none =>
              simp only [hchoice]
              exact .error (by simp only [Stage.perform, hchoice]) (by decide)
          | some template =>
              have h3 : Stage.templateChoice.perform c s (sources, text, file)
                  = .ok (sources, template) := by simp only [Stage.perform, hchoice]
              refine .next h3 ?_
              simp only [hchoice, Inputs.vars?]
              cases hvars : lookup s.files s.input sources Input.templateVars with
              | error f => exact .error (by simp only [Stage.perform, hvars]) (by decide)
              | ok vars =>
                  cases vars with
                  | none => exact .error (by simp only [Stage.perform, hvars]) (by decide)
                  | some found =>
                      have h4 : Stage.variablesText.perform c s (sources, template)
                          = .ok (template, found.value) := by simp only [Stage.perform, hvars]
                      exact .next h4 (endsBy_fill ⟨template, found.value⟩)

/-- **The way through the stages is the way of a run.** -/
theorem ends_outcome (c : Command) (s : Circumstances) :
    Ends c s .inputsFile () (outcome c s).outputs (outcome c s).failure := by
  have hprepare : EndsBy c s .inputsFile () (prepare c s).result := by
    rw [result_prepare]
    cases hsources : c.sources s.files s.environment with
    | error f => exact .error hsources (by decide)
    | ok sources => exact .next hsources (endsBy_collect sources)
  unfold outcome
  cases hr : (prepare c s).result with
  | error f => simpa only [hr, EndsBy] using hprepare
  | ok text => simpa only [hr, EndsBy] using hprepare

/-! ## The end of a run -/

/-- The exit code that belongs to a failure. -/
def codeOf : Failure → Nat
  | .missingInput _ => 2
  | .notText _ _ | .notInputs _ _ | .unresolved _ => 3
  | .fileNotFound _ => 4
  | .rendering _ => 5
  | .unreadable _ _ | .output _ _ => 1

theorem exitCode_eq_codeOf (f : Failure) : f.exitCode = codeOf f := by cases f <;> rfl

theorem newline_not_mem_message (f : Failure) :
    '\n' ∉ (Text.Line.escaped f.message).toList := by
  rw [Text.Line.escaped, String.toList_ofList]
  exact Text.Line.newline_not_mem_escape _

/-- How a failure is told: to a runner in a line of standard output, and to others elsewhere. -/
def Tells (s : Circumstances) (r : Report) (printed : String) (f : Failure) : Prop :=
  if s.environment.var? "GITHUB_ACTIONS" = some "true" then
    r.stdout = printed ++ "::error::" ++ Text.Line.escaped f.message ++ "\n" ∧ r.complaint = none
  else r.stdout = printed ∧ r.complaint = some ("error: " ++ f.message)

theorem perform_of_failure {f : Failure} (hf : (outcome c s).failure = some f) :
    (perform c s).ending = .failed f ∧ (perform c s).files = (outcome c s).outputs.files
      ∧ Tells s (perform c s) (outcome c s).outputs.stdout f := by
  refine ⟨by simp only [perform, hf], by simp only [perform, hf], ?_⟩
  unfold Tells
  split
  · rename_i h
    have hin : (Runner.ofEnvironment s.environment).inActions = true := by
      simp [Runner.ofEnvironment, h]
    simp [perform, hf, hin, Failure.line, Failure.lineOf, String.append_assoc]
  · rename_i h
    have hin : (Runner.ofEnvironment s.environment).inActions = false := by
      simp [Runner.ofEnvironment, h]
    simp [perform, hf, hin, Failure.line, Failure.lineOf]

theorem perform_of_no_failure (hf : (outcome c s).failure = none) :
    (perform c s).ending = .done := by
  simp only [perform, hf]

theorem exitCode_perform_eq_zero_iff :
    (perform c s).exitCode = 0 ↔ (outcome c s).failure = none := by
  cases hf : (outcome c s).failure with
  | none => simp [Report.exitCode, perform_of_no_failure hf, Ending.exitCode]
  | some f =>
      simp [Report.exitCode, (perform_of_failure hf).1, Ending.exitCode, Failure.exitCode,
        FailureClass.exitCode_ne_zero]

/-- **A run ends as its first failing stage does.** The words of a command line are a command. Whenever the
run comes to a stage and the stage fails, the run ends with that failure, whatever the stages after it
would do: the exit code and the message are the failure's. If the stage is not the publication, all files
are as they were and nothing is printed but the failure, which has one line. The exit code is zero exactly
when the run comes to its end. -/
theorem run_of_stages {words : List String} (hc : Command.ofWords words s.environment = .ok c) :
    (∀ (stage : Stage) (x : stage.Needs) (f : Failure), Reaches c s stage x →
        stage.perform c s x = .error f →
        (run words s).ending = .failed f ∧ (run words s).exitCode = codeOf f
          ∧ Tells s (run words s) (stage.leavings c s x).stdout f
          ∧ '\n' ∉ (Text.Line.escaped f.message).toList
          ∧ (stage ≠ .publication →
              (run words s).files = s.files ∧ (stage.leavings c s x).stdout = ""))
      ∧ ((run words s).exitCode = 0 ↔ ∃ o, Reaches c s .finished o) := by
  have hrun : run words s = perform c s := by rw [run, hc]
  have hends := ends_outcome c s
  rw [hrun]
  refine ⟨fun stage x f hr hf => ?_, ?_⟩
  · -- The outcome is that of the stage which was reached, and a run reaches no stage behind one that failed.
    obtain ⟨ho, hfailure⟩ := eq_of_ends_of_error (ends_of_reaches hr hends) hf
    obtain ⟨hending, hfiles, htells⟩ := perform_of_failure hfailure
    have hcode : (perform c s).exitCode = codeOf f := by
      rw [Report.exitCode, hending]
      exact exitCode_eq_codeOf f
    refine ⟨hending, hcode, ho ▸ htells, newline_not_mem_message f, fun hstage => ?_⟩
    rw [hfiles, ho, Stage.leavings_of_ne c s hstage]
    exact ⟨rfl, rfl⟩
  · rw [exitCode_perform_eq_zero_iff]
    constructor
    · intro hnone
      rw [hnone] at hends
      exact reaches_finished .start hends
    · rintro ⟨o, hr⟩
      exact failure_of_finished rfl (ends_of_reaches hr hends)

/-- A step of a workflow in an empty directory. -/
def misled : Circumstances where
  environment := [("GITHUB_ACTIONS", "true")]
  files := Files.empty []
  input := .text ""
  delimiters := fun _ => "D"

/-- A command whose template is in a file that does not exist, and whose variables cannot be read. -/
def misleading : Command where
  templateText := none
  templateFile := some ⟨"t"⟩
  templateVars := some "x"
  varsFile := none
  inputs := none
  output := none
  format := some .keyValue
  escapes := true
  verbosity := ⟨0, false⟩

/-- The sources of the inputs of such a run. -/
def misleadingSources : List Source :=
  [.arguments [(Input.templateFile, "t"), (Input.templateVars, "x")],
    .environment misled.environment]

theorem reaches_misleading :
    Reaches misleading misled .templateRead (.file ⟨"t"⟩, "x") := by
  have hsources : Stage.inputsFile.perform misleading misled () = .ok misleadingSources := rfl
  have htext : Stage.templateText.perform misleading misled misleadingSources
      = .ok (misleadingSources, none) := rfl
  have hfile : Stage.templateFile.perform misleading misled (misleadingSources, none)
      = .ok (misleadingSources, none, some ⟨"t", misleadingSources.head (by decide)⟩) := rfl
  have hchoice : Stage.templateChoice.perform misleading misled
      (misleadingSources, none, some ⟨"t", misleadingSources.head (by decide)⟩)
      = .ok (misleadingSources, .file ⟨"t"⟩) := rfl
  have hvars : Stage.variablesText.perform misleading misled (misleadingSources, .file ⟨"t"⟩)
      = .ok (.file ⟨"t"⟩, "x") := rfl
  exact .next (.next (.next (.next (.next .start hsources) htext) hfile) hchoice) hvars

theorem run_of_stages_misled :
    Command.ofWords ["--template-file", "t", "--template-vars", "x", "--format", "env"]
        misled.environment = .ok misleading
      ∧ (misleading.chain.resolve "x").isOk = false
      ∧ (run ["--template-file", "t", "--template-vars", "x", "--format", "env"] misled).exitCode
        = 4
      ∧ (run ["--template-file", "t", "--template-vars", "x", "--format", "env"] misled).stdout
        = "::error::no such file or directory, open 't'\n" := by
  have hc : Command.ofWords ["--template-file", "t", "--template-vars", "x", "--format", "env"]
      misled.environment = .ok misleading := rfl
  have hread : Stage.templateRead.perform misleading misled (.file ⟨"t"⟩, "x")
      = .error (.fileNotFound ⟨"t"⟩) := rfl
  obtain ⟨-, hcode, htells, -⟩ := (run_of_stages hc).1 _ _ _ reaches_misleading hread
  exact ⟨hc, by decide +kernel, hcode, htells.1⟩

end Stencil.Session
