import Stencil.KeyValue.Reader

/-!
# Writing KEY=VALUE text

Every value goes between double quotes with its escapes, one assignment a line, so that any text at
all can be a value.
-/

namespace Stencil.KeyValue

/-- One assignment with its line end. -/
def written (key value : List Char) : List Char :=
  key ++ '=' :: '"' :: (encode value ++ ['"', '\n'])

/-- The text of some assignments. -/
def document (entries : List (List Char × List Char)) : List Char :=
  entries.flatMap fun e => written e.1 e.2

end Stencil.KeyValue
