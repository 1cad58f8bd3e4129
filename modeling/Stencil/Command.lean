import Stencil.Command.Draft
import Stencil.Inputs
import Stencil.Log.Filter
import Stencil.Publication
import Stencil.Rendering

/-!
# Commands

What a run is told to do, by a command line and by two variables of the environment that stand in for
switches.
-/

namespace Stencil

/-- What a run is told to do. -/
structure Command where
  templateText : Option String
  templateFile : Option Path
  templateVars : Option String
  /-- A file that holds the variables. -/
  varsFile : Option Path
  /-- A file that holds inputs. -/
  inputs : Option Path
  /-- A file that the rendered text goes into besides. -/
  output : Option Path
  /-- The format of the variables; without one they are tried in all formats. -/
  format : Option Format
  /-- Whether printed values are escaped. -/
  escapes : Bool
  verbosity : Log.Verbosity
  deriving DecidableEq, Repr

namespace Command

/-- The variable that stands in for the format. -/
def formatVariable : String := "STAMP_FORMAT"

/-- The variable that stands in for the flag against escaping. -/
def noEscapeVariable : String := "STAMP_NO_ESCAPE"

/-- The choice of a format. The command line goes before the environment. -/
def formatChoice (d : Draft) (env : Environment) : Except Refusal FormatChoice :=
  match (d.value? .format).or (env.var? formatVariable) with
  | none => .ok .all
  | some word =>
      match FormatChoice.ofWord? word with
      | some choice => .ok choice
      | none => .error .invalidValue

/-- Whether escaping is turned off, by the flag or by the environment. -/
def turnsEscapingOff (d : Draft) (env : Environment) : Except Refusal Bool :=
  if d.noEscape then .ok true
  else
    match env.var? noEscapeVariable with
    | none => .ok false
    | some "true" => .ok true
    | some "false" => .ok false
    | some _ => .error .invalidValue

/-- Whether a draft says things that exclude each other. -/
def hasConflict (d : Draft) : Bool :=
  ((d.value? .templateVars).isSome && (d.value? .varsFile).isSome) || (0 < d.verbose && d.quiet)

def ofDraft (d : Draft) (env : Environment) : Except Refusal Command :=
  match formatChoice d env, turnsEscapingOff d env with
  | .error r, _ => .error r
  | .ok _, .error r => .error r
  | .ok choice, .ok noEscape =>
      if hasConflict d then .error .conflict
      else
        .ok {
          templateText := d.value? .templateText
          templateFile := (d.value? .templateFile).map Path.mk
          templateVars := d.value? .templateVars
          varsFile := (d.value? .varsFile).map Path.mk
          inputs := (d.value? .inputs).map Path.mk
          output := (d.value? .output).map Path.mk
          format := choice.format?
          escapes := !noEscape
          verbosity := ⟨d.verbose, d.quiet⟩ }

/-- The command that the words of a command line make. -/
def ofWords (words : List String) (env : Environment) : Except Refusal Command :=
  match Draft.empty.takeAll words with
  | .error r => .error r
  | .ok d => ofDraft d env

/-! ## What a command says -/

/-- The input values that the command itself gives. -/
def arguments (c : Command) : Members String :=
  (c.templateText.map fun text => (Input.templateText, text)).toList
    ++ (c.templateFile.map fun path => (Input.templateFile, path.text)).toList
    ++ (c.templateVars.map fun text => (Input.templateVars, text)).toList

/-- The sources of inputs: the command, a file of variables, a file of inputs and the environment. The
file of inputs is read now and the file of variables when its turn comes. -/
def sources (c : Command) (fs : Files) (env : Environment) : Except Failure (List Source) :=
  let first := .arguments c.arguments :: (c.varsFile.map Source.variablesFile).toList
  match c.inputs with
  | none => .ok (first ++ [.environment env])
  | some file =>
      match Source.ofInputsFile fs file with
      | .error f => .error f
      | .ok inputs => .ok (first ++ [inputs, .environment env])

/-- The formats that the variables are tried in. -/
def chain (c : Command) : Chain :=
  match c.format with
  | some format => Chain.only format
  | none => Chain.standard

/-- The policy that the template is filled under. -/
def policy (c : Command) : Policy := { Policy.standard with escapes := c.escapes }

/-- Where the rendered text goes. -/
def destinations (c : Command) (runner : Runner) : List Destination :=
  Destination.ofRunner runner c.output

end Command

end Stencil
