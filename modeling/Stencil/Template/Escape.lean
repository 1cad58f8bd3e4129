import Stencil.Template.Fault
import Stencil.Template.Value.Document
import Stencil.Text.Escape.Html

/-!
# Escaping values

How a value becomes output. The mode in force decides: HTML escapes texts unless they are marked as
safe, JSON writes the document of a value, and no mode writes the plain text.

Printing leaves slashes alone, so that paths stay readable; the filter for escaping is stricter and
writes a slash as an entity too.
-/

namespace Stencil.Template

/-- How printed values are escaped. -/
inductive EscapeMode where
  | html
  | json
  | none
  deriving DecidableEq, Repr

/-- A truth value as it is printed. -/
def printedBool (b : Bool) : List Char := if b then "true".toList else "false".toList

/-- What a value prints. What has no value prints nothing. -/
def printed (mode : EscapeMode) (v : Value) : Except Cause (List Char) :=
  match v with
  | .undefined | .none => .ok []
  | .bool b => .ok (printedBool b)
  | .string s true => .ok s.toList
  | v =>
      match mode with
      | .html => .ok (Text.Html.escape v.plainText)
      | .none => .ok v.plainText
      | .json =>
          match v.toJson? with
          | some d => .ok d.compact
          | Option.none => .error .badSerialization

/-- The entity of a character in the strict way of escaping. -/
def strictEntity (c : Char) : List Char :=
  if c = '&' then "&amp;".toList
  else if c = '<' then "&lt;".toList
  else if c = '>' then "&gt;".toList
  else if c = '"' then "&quot;".toList
  else if c = '\'' then "&#x27;".toList
  else if c = '/' then "&#x2f;".toList
  else [c]

/-- A value escaped so that it is safe; without a mode in force it is escaped as HTML. -/
def escapedStrictly (mode : EscapeMode) (v : Value) : Except Cause Value :=
  match v with
  | .string s true => .ok (.string s true)
  | v =>
      match mode with
      | .json =>
          match v.toJson? with
          | some d => .ok (.string d.text true)
          | Option.none => .error .badSerialization
      | _ => .ok (.string (String.ofList (v.plainText.flatMap strictEntity)) true)

end Stencil.Template
