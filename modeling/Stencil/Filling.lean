import Stencil.Inputs
import Stencil.Rendering

/-!
# Filling a template

From the inputs of a run to the rendered text: the template is loaded, the variables are read, and the
template is filled with them. The first step that fails decides, and so a template that is missing is
told of even when the variables cannot be read either.
-/

namespace Stencil.Inputs

/-- The text that inputs make. -/
def fill (i : Inputs) (fs : Files) (chain : Chain) (policy : Policy) : Except Failure String :=
  match i.template.load fs with
  | .error f => .error f
  | .ok template =>
      match chain.resolve i.vars with
      | .error u => .error (.unresolved u)
      | .ok resolved =>
          match policy.render template resolved.vars with
          | .error f => .error (.rendering f)
          | .ok text => .ok text

end Stencil.Inputs
