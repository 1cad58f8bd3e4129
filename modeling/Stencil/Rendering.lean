import Stencil.Variables
import Stencil.Template.Parser.Stmt
import Stencil.Template.Evaluation

/-!
# Rendering

A template is filled with variables under a policy, which says how printed values are escaped and
whether the line end that a template ends with is kept. Rendering is a function of the template, the
variables and the policy: no rendering leaves anything behind for the next.
-/

namespace Stencil

open Template

/-- How templates are rendered. -/
structure Policy where
  /-- Whether printed values are escaped for HTML. -/
  escapes : Bool
  /-- Whether a template keeps the line end it ends with. -/
  keepsNewline : Bool
  deriving DecidableEq, Repr

namespace Policy

/-- Values are escaped and templates are kept as they are. -/
def standard : Policy := ⟨true, true⟩

/-- The mode that a rendering starts in. -/
def mode (p : Policy) : EscapeMode := if p.escapes then .html else .none

/-- The statements of a template. -/
def statements (p : Policy) (template : String) : Except Fault (List Stmt) :=
  Stmt.ofTokens (Tokens.ofText p.keepsNewline template.toList)

/-- What a template becomes when it is filled with variables. -/
def render (p : Policy) (template : String) (vars : Variables) : Except Fault String :=
  let values := vars.members.map fun m => (m.1, Value.ofVariable m.1 m.2)
  match p.statements template with
  | .error f => .error f
  | .ok body =>
      match fill (Members.get? values) p.mode body with
      | .error f => .error f
      | .ok out => .ok (String.ofList out)

end Policy

end Stencil
