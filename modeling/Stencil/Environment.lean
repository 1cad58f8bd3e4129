import Stencil.Files.Path
import Stencil.Members
import Stencil.Text.Case

/-!
# Environment

The variables that surround a run, and what they say about the runner that started it.
-/

namespace Stencil

/-- Environment variables by name. -/
abbrev Environment := Members String

namespace Environment

/-- The value of a variable. -/
def var? (env : Environment) (name : String) : Option String := Members.get? env name

/-- The value of a variable that is set to something. -/
def filled? (env : Environment) (name : String) : Option String :=
  match env.var? name with
  | none => none
  | some value => if value = "" then none else some value

/-- The variable that holds an input of a step: spaces become underscores and letters capitals. -/
def inputVariable (input : String) : String :=
  "INPUT_" ++ String.ofList (Text.upperText (input.toList.map fun c => if c = ' ' then '_' else c))

end Environment

/-- What a run has to know about the runner that started it. -/
structure Runner where
  /-- Whether the run is a step of a workflow. -/
  inActions : Bool
  /-- Whether the workflow asks for debug output. -/
  debug : Bool
  /-- The file in which the outputs of the step are collected. -/
  outputFile : Option Path
  deriving DecidableEq, Repr

def Runner.ofEnvironment (env : Environment) : Runner where
  inActions := env.var? "GITHUB_ACTIONS" == some "true"
  debug := env.var? "RUNNER_DEBUG" == some "1"
  outputFile := (env.filled? "GITHUB_OUTPUT").map Path.mk

end Stencil
