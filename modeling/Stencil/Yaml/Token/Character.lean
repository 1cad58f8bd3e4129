/-!
# Characters of a YAML text

Which characters a text may hold, which of them end a line, and how a position moves over them.
-/

namespace Stencil.Yaml

/-- The characters that a text may hold: no controls but tab, the line ends and NEL, and no code
point that is set aside as a non-character of the basic plane. -/
def isAllowed (c : Char) : Bool :=
  let n := c.toNat
  n == 0x09 || n == 0x0A || n == 0x0D || (0x20 ≤ n && n ≤ 0x7E) || n == 0x85
    || (0xA0 ≤ n && n ≤ 0xFFFD) || 0x10000 ≤ n

/-- Space and tab. -/
def isBlank (c : Char) : Bool := c == ' ' || c == '\t'

/-- The characters that end a line. -/
def isBreak (c : Char) : Bool :=
  c == '\n' || c == '\r' || c.toNat == 0x85 || c.toNat == 0x2028 || c.toNat == 0x2029

/-- A character at which a word ends. -/
def isGap (c : Char) : Bool := isBlank c || isBreak c

/-- Whether a text starts with a character at which a word ends, or is at its end. -/
def startsGap : List Char → Bool
  | [] => true
  | c :: _ => isGap c

/-- The characters of names: letters, digits, the underscore and the hyphen. -/
def isNameChar (c : Char) : Bool := c.isAlphanum || c == '_' || c == '-'

/-- The break that is kept of a line end: separators keep their kind, all others are a newline. -/
def breakChar (c : Char) : Char :=
  if c.toNat == 0x2028 || c.toNat == 0x2029 then c else '\n'

/-- Whether a carriage return belongs to the newline after it. -/
def returnsBeforeNewline (c : Char) (cs : List Char) : Bool :=
  c == '\r' && cs.head? == some '\n'

/-- Whether a line starts with a mark between documents. -/
def startsDocumentMark : List Char → Bool
  | '-' :: '-' :: '-' :: cs => startsGap cs
  | '.' :: '.' :: '.' :: cs => startsGap cs
  | _ => false

/-! ## Positions -/

/-- How many bytes and line ends stand before a place, and its column in its line, in characters. -/
structure Position where
  index : Nat
  line : Nat
  column : Nat
  deriving DecidableEq, Repr

/-- The start of a text. -/
def Position.start : Position := ⟨0, 0, 0⟩

/-- The position after one character. A carriage return before a newline leaves the line end to
it. -/
def Position.next (p : Position) (c : Char) (following : List Char) : Position :=
  if isBreak c && !returnsBeforeNewline c following then ⟨p.index + c.utf8Size, p.line + 1, 0⟩
  else ⟨p.index + c.utf8Size, p.line, p.column + 1⟩

/-- The position after the first `n` characters of a text. -/
def Position.advance (p : Position) : Nat → List Char → Position
  | 0, _ => p
  | _ + 1, [] => p
  | n + 1, c :: cs => (p.next c cs).advance n cs

end Stencil.Yaml
