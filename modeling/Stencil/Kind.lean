/-!
# Kinds of values

What sort of value a document holds, as the error texts name it. A list is an *array* in JSON and a
*sequence* in YAML; likewise *object* and *mapping*.
-/

namespace Stencil

/-- The sort of a value. -/
inductive Kind where
  | null
  | boolean
  | number
  | string
  | array
  | sequence
  | object
  | mapping
  deriving DecidableEq, Repr

/-- The bare noun of a kind. -/
def Kind.noun : Kind → String
  | .null => "null"
  | .boolean => "boolean"
  | .number => "number"
  | .string => "string"
  | .array => "array"
  | .sequence => "sequence"
  | .object => "object"
  | .mapping => "mapping"

/-- The noun with its article, which `null` does without. -/
def Kind.described : Kind → String
  | .null => "null"
  | .array => "an array"
  | .object => "an object"
  | k => "a " ++ k.noun

end Stencil
