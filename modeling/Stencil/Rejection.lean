import Stencil.Kind
import Stencil.KeyValue.Reader
import Stencil.Yaml.Conversion

/-!
# Rejections

Why a format does not read a text as variables.
-/

namespace Stencil

/-- What makes a text unreadable in a format. -/
inductive Malformation where
  /-- The text is not JSON. -/
  | json
  /-- The text is not YAML. -/
  | yaml
  /-- The text is YAML with a key that is not a scalar. -/
  | key (fault : Yaml.KeyFault)
  /-- The text is not KEY=VALUE. -/
  | line (fault : KeyValue.LineFault)
  deriving DecidableEq, Repr

/-- Why a format does not read a text. -/
inductive Rejection where
  | empty
  | malformed (cause : Malformation)
  | notAMapping (kind : Kind)
  | noKeys
  deriving DecidableEq, Repr

def Malformation.message : Malformation → String
  | .json => "not a JSON text"
  | .yaml => "not a YAML text"
  | .key f => f.message
  | .line f => f.message

def Rejection.message : Rejection → String
  | .empty => "input is empty"
  | .malformed cause => cause.message
  | .notAMapping kind => "top-level value is " ++ kind.described ++ ", not a mapping"
  | .noKeys => "mapping has no keys"

end Stencil
