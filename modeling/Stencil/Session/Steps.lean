import Stencil.Command
import Stencil.Filling
import Stencil.Log

/-!
# The steps of a run

The steps from a command to the rendered text with the events that each of them notes. Without the log
they are the search for inputs and the filling of the template.

Main statements: `result_collect` and `result_fill`.
-/

namespace Stencil

open Log

/-- What surrounds a run. -/
structure Circumstances where
  environment : Environment
  files : Files
  /-- What standard input holds. -/
  input : Content
  /-- The delimiters that entries among the outputs of a step are given, in order. -/
  delimiters : Nat → String

namespace Session

/-! ## Inputs -/

/-- The event of a value that is passed over. -/
def passedOverEvent (input : String) (s : Source) : Event :=
  ⟨.trace, "stamp::input::chain", "blank input skipped",
    [Event.quoted "input" input, Event.quoted "source" s.name]⟩

def foundEvent (input : String) (found : Found) : Event :=
  ⟨.debug, "stamp::input::chain", "input resolved",
    [Event.quoted "input" input, Event.quoted "source" found.source.name,
      Event.count "bytes" found.value.utf8ByteSize]⟩

/-- The event of a template file that nothing is done with. -/
def ignoredEvent (file : Found) : Event :=
  ⟨.debug, "stamp::input", "template-text given, ignoring template-file",
    [Event.plain "ignored" file.value]⟩

def look (s : Circumstances) (sources : List Source) (input : String) : Logged (Option Found) :=
  let found := lookup s.files s.input sources input
  let skipped := (passedOver s.files s.input sources input).map (passedOverEvent input)
  match found with
  | .ok (some f) => ⟨skipped ++ [foundEvent input f], found⟩
  | _ => ⟨skipped, found⟩

@[simp] theorem result_look (s : Circumstances) (sources : List Source) (input : String) :
    (look s sources input).result = lookup s.files s.input sources input := by
  simp only [look]
  split <;> rfl

/-- The events of choosing a template. -/
def choiceEvents : Option Found → Option Found → List Event
  | some _, some file => [ignoredEvent file]
  | _, _ => []

def collect (s : Circumstances) (sources : List Source) : Logged Inputs := do
  let text ← look s sources Input.templateText
  let file ← look s sources Input.templateFile
  Logged.note (choiceEvents text file)
  let template ← Logged.ofResult (
    match TemplateSource.choose text file with
    | none => .error (.missingInput [Input.templateText, Input.templateFile])
    | some template => .ok template)
  let vars ← look s sources Input.templateVars
  Logged.ofResult (
    match vars with
    | none => .error (.missingInput [Input.templateVars])
    | some found => .ok ⟨template, found.value⟩)

/-- **Without its log, collecting is the search for inputs.** -/
theorem result_collect (s : Circumstances) (sources : List Source) :
    (collect s sources).result = Inputs.collect s.files s.input sources := by
  simp only [collect, Logged.result_bind, result_look, Logged.result_note, Logged.result_ofResult,
    Inputs.collect, Inputs.template?, Inputs.vars?]
  cases lookup s.files s.input sources Input.templateText with
  | error f => rfl
  | ok text =>
      cases lookup s.files s.input sources Input.templateFile with
      | error f => rfl
      | ok file =>
          simp only [Except.bind]
          cases TemplateSource.choose text file with
          | none => rfl
          | some template =>
              cases lookup s.files s.input sources Input.templateVars with
              | error f => rfl
              | ok vars => cases vars <;> rfl

/-! ## Filling the template -/

def loadEvents (source : TemplateSource) (template : String) : List Event :=
  (match source with
    | .inline _ => []
    | .file path =>
        [⟨.debug, "stamp::template", "template file read",
          [Event.plain "path" path.text, Event.count "bytes" template.utf8ByteSize]⟩])
    ++ [⟨.debug, "stamp::action", "template loaded", [Event.plain "source" source.describe]⟩]

/-- The event of a key that hints at another format. -/
def assignmentKeyEvent (key : String) : Event :=
  ⟨.debug, "stamp_vars::format",
    "YAML key contains '='; input may have been meant as KEY=VALUE", [Event.plain "key" key]⟩

def attemptEvents (text : String) (f : Format) : List Event :=
  (f.assignmentKeys text).map assignmentKeyEvent
    ++ match f.read text with
      | .ok vars =>
          [⟨.debug, "stamp_vars::chain", "variables resolved",
            [Event.plain "format" f.title, Event.count "keys" vars.size]⟩]
      | .error rejection =>
          [⟨.debug, "stamp_vars::chain", "interpreter rejected input",
            [Event.plain "format" f.title, Event.plain "reason" rejection.message]⟩]

/-- The formats of a chain up to the first that reads a text. -/
def attempted (text : String) : List Format → List Format
  | [] => []
  | f :: fs =>
      match f.read text with
      | .ok _ => [f]
      | .error _ => f :: attempted text fs

/-- Reads the variables. -/
def resolve (chain : Chain) (text : String) : Logged Chain.Resolved :=
  let events := (attempted text chain.formats).flatMap (attemptEvents text)
  match chain.resolve text with
  | .error u => ⟨events, .error (.unresolved u)⟩
  | .ok resolved =>
      ⟨events ++ [⟨.info, "stamp::action", "variables resolved",
        [Event.plain "format" resolved.format.title,
          Event.count "keys" resolved.vars.size]⟩], .ok resolved⟩

def render (policy : Policy) (template : String) (vars : Variables) : Logged String :=
  match policy.render template vars with
  | .error f => ⟨[], .error (.rendering f)⟩
  | .ok text =>
      ⟨[⟨.debug, "stamp_render::engine", "template rendered",
          [Event.count "template_bytes" template.utf8ByteSize,
            Event.count "output_bytes" text.utf8ByteSize]⟩,
        ⟨.info, "stamp::action", "template rendered",
          [Event.count "bytes" text.utf8ByteSize]⟩], .ok text⟩

/-- Makes the rendered text from the inputs. -/
def fill (i : Inputs) (fs : Files) (chain : Chain) (policy : Policy) : Logged String := do
  let template ← Logged.ofResult (i.template.load fs)
  Logged.note (loadEvents i.template template)
  let resolved ← resolve chain i.vars
  render policy template resolved.vars

/-- **Without its log, filling is the filling of the template.** -/
theorem result_fill (i : Inputs) (fs : Files) (chain : Chain) (policy : Policy) :
    (fill i fs chain policy).result = i.fill fs chain policy := by
  simp only [fill, Logged.result_bind, Logged.result_ofResult, Logged.result_note, Inputs.fill]
  cases i.template.load fs with
  | error f => rfl
  | ok template =>
      simp only [Except.bind, resolve]
      cases chain.resolve i.vars with
      | error u => rfl
      | ok resolved =>
          simp only [render]
          cases policy.render template resolved.vars <;> rfl

end Session

end Stencil
