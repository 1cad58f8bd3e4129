import Stencil.Environment
import Stencil.Failure
import Stencil.Json.Reader
import Stencil.Yaml.Record
import Stencil.Text.Blank

/-!
# Sources of inputs

Where the values of inputs come from. A source has a value for an input, has none, or fails, as when it
holds something that is no text.
-/

namespace Stencil

namespace Input

/-- The input that holds the text of the template. -/
def templateText : String := "template-text"

/-- The input that names the file of the template. -/
def templateFile : String := "template-file"

/-- The input that holds the variables. -/
def templateVars : String := "template-vars"

end Input

/-- A place that input values come from. -/
inductive Source where
  /-- Values given with the command. -/
  | arguments (values : Members String)
  /-- A file that holds the variables, or standard input. -/
  | variablesFile (file : Path)
  /-- The members of a file of inputs. -/
  | inputsFile (values : Members Json)
  /-- The variables that a runner sets. -/
  | environment (env : Environment)

namespace Source

/-- What a source is called in the log. -/
def name : Source → String
  | .arguments _ => "argument"
  | .variablesFile _ => "variables file"
  | .inputsFile _ => "inputs file"
  | .environment _ => "environment variable"

/-- The text that a content holds, for a file that an input names. -/
def textOf (file : Path) : Content → Except Failure String
  | .text s => .ok s
  | .binary _ => .error (.ofRead file .notText)

/-- The text of a file that an input names. -/
def textOfFile (fs : Files) (file : Path) : Except Failure String :=
  match fs.read file with
  | .ok s => .ok s
  | .error fault => .error (.ofRead file fault)

/-- The text of a file of variables; a dash stands for standard input. -/
def variablesText (fs : Files) (stdin : Content) (file : Path) : Except Failure String :=
  if file.isStandardInput then textOf file stdin else textOfFile fs file

/-- The value that a source has for an input, if any. Null is no value, and no other value but a text
can stand for one. -/
def value (fs : Files) (stdin : Content) (s : Source) (input : String) :
    Except Failure (Option String) :=
  match s with
  | .arguments values => .ok (Members.get? values input)
  | .variablesFile file =>
      if input = Input.templateVars then (variablesText fs stdin file).map some else .ok none
  | .inputsFile values =>
      match Members.get? values input with
      | none | some .null => .ok none
      | some (.string text) => .ok (some text)
      | some other => .error (.notText input other.kind)
  | .environment env => .ok (env.filled? (Environment.inputVariable input))

/-! ## Files of inputs -/

/-- Whether a file of inputs is read as JSON and not as YAML. -/
def isJsonFile (file : Path) : Bool := (file.extension?.map Text.asciiLower) == some "json"

/-- The source that the text of a file of inputs makes. -/
def ofInputsText (file : Path) (text : String) : Except Failure Source :=
  match if isJsonFile file then Json.parse? text else Yaml.parseJson? text with
  | none => .error (.notInputs file none)
  | some (.object members) => .ok (.inputsFile members)
  | some other => .error (.notInputs file other.kind)

/-- The source that a file of inputs makes. -/
def ofInputsFile (fs : Files) (file : Path) : Except Failure Source :=
  match textOfFile fs file with
  | .error f => .error f
  | .ok text => ofInputsText file text

end Source

end Stencil
