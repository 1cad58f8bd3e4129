import Stencil.Inputs.Lookup

/-!
# Inputs

What a run needs before it starts: a template, given as a text or by the name of its file, and the text
of the variables. A text wins over a file, and both are looked up, so that a source that fails for either
of them ends the search.
-/

namespace Stencil

/-- Where a template comes from. -/
inductive TemplateSource where
  | inline (text : String)
  | file (path : Path)
  deriving DecidableEq, Repr

namespace TemplateSource

/-- What the source of a template is called in the log. -/
def describe : TemplateSource → String
  | .inline _ => "inline text"
  | .file path => path.text

/-- The text of a template, as it stands in its file. -/
def load (fs : Files) : TemplateSource → Except Failure String
  | .inline text => .ok text
  | .file path => Source.textOfFile fs path

/-- The template that what was found for the two inputs of templates makes. -/
def choose : Option Found → Option Found → Option TemplateSource
  | some text, _ => some (.inline text.value)
  | none, some path => some (.file ⟨path.value⟩)
  | none, none => none

end TemplateSource

/-- The inputs of a run. -/
structure Inputs where
  template : TemplateSource
  vars : String
  deriving DecidableEq, Repr

namespace Inputs

def template? (fs : Files) (stdin : Content) (sources : List Source) :
    Except Failure TemplateSource :=
  match lookup fs stdin sources Input.templateText with
  | .error f => .error f
  | .ok text =>
      match lookup fs stdin sources Input.templateFile with
      | .error f => .error f
      | .ok file =>
          match TemplateSource.choose text file with
          | none => .error (.missingInput [Input.templateText, Input.templateFile])
          | some template => .ok template

/-- The text of the variables that sources give. -/
def vars? (fs : Files) (stdin : Content) (sources : List Source) : Except Failure String :=
  match lookup fs stdin sources Input.templateVars with
  | .error f => .error f
  | .ok none => .error (.missingInput [Input.templateVars])
  | .ok (some found) => .ok found.value

/-- Collects the inputs of a run. The template comes first, so that a run that lacks both is told of
the template. -/
def collect (fs : Files) (stdin : Content) (sources : List Source) : Except Failure Inputs :=
  match template? fs stdin sources with
  | .error f => .error f
  | .ok template =>
      match vars? fs stdin sources with
      | .error f => .error f
      | .ok vars => .ok ⟨template, vars⟩

end Inputs

end Stencil
