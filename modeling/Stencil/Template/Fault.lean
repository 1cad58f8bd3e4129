/-!
# Faults of templates

What can be wrong with a template, or go wrong while it is filled. A fault carries the line it is
attributed to; lines count from one.

The engine adds a detail in words of its own to most causes, such as the tokens a parser expected or the kinds of
the operands. It depends on nothing but the template and the values at the place of the fault. Details are left
out, except for the names that a template asked for: causes are told apart by their kind, and messages are those
of the engine without its details.
-/

namespace Stencil.Template

/-- What is wrong. The names in the unknown cases are what the template asked for; they are absent
where the name was handed to a filter. -/
inductive Cause where
  | malformed
  | badEscape
  | unknownFilter (name : Option String)
  | unknownTest (name : Option String)
  | unknownFunction (detail : String)
  | unknownMethod (detail : String)
  | unknownBlock (name : String)
  | invalidOperation
  | missingArgument
  | tooManyArguments
  | cannotUnpack
  | undefinedValue
  | templateNotFound
  | badSerialization
  deriving DecidableEq, Repr

/-- The three classes that faults fall into. -/
inductive FaultClass where
  /-- The template is not well formed, or names a filter, test, function or method there is none
  of. -/
  | form
  /-- The template is well formed and could not be filled. -/
  | evaluation
  /-- A value has no written form in the format asked for. -/
  | serialization
  deriving DecidableEq, Repr

def Cause.faultClass : Cause → FaultClass
  | .malformed | .badEscape | .unknownFilter _ | .unknownTest _ | .unknownFunction _
  | .unknownMethod _ => .form
  | .badSerialization => .serialization
  | _ => .evaluation

/-- The text after the name of a cause, if there is any. -/
def withDetail (name : String) : Option String → String
  | none => name
  | some detail => name ++ ": " ++ detail

/-- The wording of a cause, without the engine's own detail. -/
def Cause.message : Cause → String
  | .malformed => "syntax error"
  | .badEscape => "bad string escape"
  | .unknownFilter name =>
      withDetail "unknown filter" (name.map fun n => "filter " ++ n ++ " is unknown")
  | .unknownTest name =>
      withDetail "unknown test" (name.map fun n => "test " ++ n ++ " is unknown")
  | .unknownFunction detail => "unknown function: " ++ detail
  | .unknownMethod detail => "unknown method: " ++ detail
  | .unknownBlock name => "unknown block: block '" ++ name ++ "' not found"
  | .invalidOperation => "invalid operation"
  | .missingArgument => "missing argument"
  | .tooManyArguments => "too many arguments"
  | .cannotUnpack => "cannot unpack"
  | .undefinedValue => "undefined value"
  | .templateNotFound => "template not found"
  | .badSerialization => "could not serialize to value"

/-- A cause with the line it is attributed to. -/
structure Fault where
  cause : Cause
  line : Nat
  deriving DecidableEq, Repr

/-- The name that a template given as text goes by. -/
def templateName : String := "<string>"

/-- The wording of a fault with its place, without the engine's own detail. -/
def Fault.message (f : Fault) : String :=
  f.cause.message ++ " (in " ++ templateName ++ ":" ++ toString f.line ++ ")"

end Stencil.Template
