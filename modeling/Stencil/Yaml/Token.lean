/-!
# YAML tokens

The pieces a YAML text is cut into. Indentation has become brackets of its own: a block collection
opens with a start token and closes with `blockEnd`, and every key of a mapping has a `key` token in
front of it, whether or not the text marks it.
-/

namespace Stencil.Yaml

/-- A piece of a YAML text. -/
inductive Token where
  | version (major minor : Nat)
  | tagHandle (handle expansion : String)
  | documentStart
  | documentEnd
  | blockSequence
  | blockMapping
  | blockEnd
  | flowSequence
  | flowSequenceEnd
  | flowMapping
  | flowMappingEnd
  | blockEntry
  | flowEntry
  | key
  | value
  | alias (name : String)
  | anchor (name : String)
  | tag (handle suffix : String)
  | scalar (plain : Bool) (text : String)
  deriving DecidableEq, Repr

end Stencil.Yaml
