/-!
# HTML escaping

Five characters are written as entities, so that a value stands for itself wherever it is put into a
document. A slash stays as it is: paths and links in a document remain readable. The reverse pass
`decode` reads the five entities and leaves every other ampersand alone.

Main statement: decoding what was escaped gives the text back (`decode_escape`).
-/

namespace Stencil.Text.Html

/-- The entity of a character that may not stand in a document as it is. -/
def entity? (c : Char) : Option (List Char) :=
  if c = '&' then some ['&', 'a', 'm', 'p', ';']
  else if c = '<' then some ['&', 'l', 't', ';']
  else if c = '>' then some ['&', 'g', 't', ';']
  else if c = '"' then some ['&', 'q', 'u', 'o', 't', ';']
  else if c = '\'' then some ['&', '#', '3', '9', ';']
  else none

/-- A character as it is written into a document. -/
def escapeChar (c : Char) : List Char := (entity? c).getD [c]

/-- A text as it is written into a document. -/
def escape (cs : List Char) : List Char := cs.flatMap escapeChar

/-- Reads the five entities in one pass from left to right. -/
def decode : List Char → List Char
  | '&' :: 'a' :: 'm' :: 'p' :: ';' :: cs => '&' :: decode cs
  | '&' :: 'l' :: 't' :: ';' :: cs => '<' :: decode cs
  | '&' :: 'g' :: 't' :: ';' :: cs => '>' :: decode cs
  | '&' :: 'q' :: 'u' :: 'o' :: 't' :: ';' :: cs => '"' :: decode cs
  | '&' :: '#' :: '3' :: '9' :: ';' :: cs => '\'' :: decode cs
  | c :: cs => c :: decode cs
  | [] => []

@[simp] theorem escape_nil : escape [] = [] := rfl

@[simp] theorem escape_cons (c : Char) (cs : List Char) :
    escape (c :: cs) = escapeChar c ++ escape cs := by simp [escape]

@[simp] theorem escape_append (s t : List Char) : escape (s ++ t) = escape s ++ escape t := by
  simp [escape]

theorem decode_cons_of_ne {c : Char} (h : c ≠ '&') (cs : List Char) :
    decode (c :: cs) = c :: decode cs := by
  rw [decode.eq_def]
  split <;> simp_all

/-- **Decoding undoes escaping**, also where the text itself spells an entity: its ampersand was
written as one. -/
theorem decode_escape (s : List Char) : decode (escape s) = s := by
  induction s with
  | nil => simp [decode]
  | cons c s ih =>
      by_cases h1 : c = '&'
      · simp [h1, escapeChar, entity?, decode, ih]
      by_cases h2 : c = '<'
      · simp [h2, escapeChar, entity?, decode, ih]
      by_cases h3 : c = '>'
      · simp [h3, escapeChar, entity?, decode, ih]
      by_cases h4 : c = '"'
      · simp [h4, escapeChar, entity?, decode, ih]
      by_cases h5 : c = '\''
      · simp [h5, escapeChar, entity?, decode, ih]
      · simp [escapeChar, entity?, h1, h2, h3, h4, h5, decode_cons_of_ne h1, ih]

/-- A string as it is written into a document. -/
def escaped (s : String) : String := String.ofList (escape s.toList)

end Stencil.Text.Html
