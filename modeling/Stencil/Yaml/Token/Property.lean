import Stencil.Yaml.Token
import Stencil.Yaml.Token.Character
import Stencil.Decimal.Numeral

/-!
# Anchors, tags and directives

The tokens whose text is a name or an address. Tags are written with a handle and a suffix, and a
handle stands for what a directive says of it.
-/

namespace Stencil.Yaml

/-- The characters of a name that a text starts with, and what follows. -/
def spanName (cs : List Char) : List Char × List Char := cs.span isNameChar

/-- Whether a name may end in front of a text. -/
def endsName : List Char → Bool
  | [] => true
  | c :: _ =>
      isGap c || c == '?' || c == ':' || c == ',' || c == ']' || c == '\x7d' || c == '%'
        || c == '@' || c == '\u0060'

/-- Reads the name of an anchor or alias after its indicator. -/
def anchorName? (cs : List Char) : Option (List Char × List Char) :=
  let (name, rest) := spanName cs
  if !name.isEmpty && endsName rest then some (name, rest) else none

/-! ## Tags -/

/-- The characters of an address, besides those of names and escapes. In angle brackets more are
allowed. -/
def isAddressChar (verbatim : Bool) (c : Char) : Bool :=
  isNameChar c || c == ';' || c == '/' || c == '?' || c == ':' || c == '@' || c == '&' || c == '='
    || c == '+' || c == '$' || c == '.' || c == '!' || c == '~' || c == '*' || c == '\''
    || c == '(' || c == ')' || (verbatim && (c == ',' || c == '[' || c == ']'))

/-- How many bytes a character has whose first byte is given. -/
def byteCount? (b : Nat) : Option Nat :=
  if b < 0x80 then some 1
  else if b / 0x20 = 0x06 then some 2
  else if b / 0x10 = 0x0E then some 3
  else if b / 0x08 = 0x1E then some 4
  else none

/-- The bits that the first of several bytes gives to a code point. -/
def leadBits (count b : Nat) : Nat := if count = 1 then b else b % Decimal.twoTo (7 - count)

/-- The least code point that takes a number of bytes. -/
def leastCode (count : Nat) : Nat :=
  if count = 2 then 0x80 else if count = 3 then 0x800 else if count = 4 then 0x10000 else 0

/-- The character that stands in an address for bytes that spell none. Addresses do not hold it
otherwise, since they end in front of a byte that is zero. -/
def illSpelled : Char := '\x00'

/-- The character with a code point that was spelled in a number of bytes. -/
def spelled (count code : Nat) : Char :=
  if leastCode count ≤ code ∧ code.isValidChar then Char.ofNat code else illSpelled

/-- The characters of an address that starts with a given one. -/
def startingWith (c : Char) : List Char × List Char → List Char × List Char
  | (s, rest) => (c :: s, rest)

/-- Reads the characters of an address, which ends for good in front of a byte that is zero. An
escape is a percent sign and two digits for each byte of a character of `count` bytes; `pending`
counts the bytes that are missing and `code` holds the bits so far. -/
def address (verbatim : Bool) (count pending code : Nat) :
    List Char → Option (List Char × List Char)
  | '%' :: a :: b :: cs =>
      match Decimal.ofDigitsIn? 16 [a, b] with
      | none => none
      | some byte =>
          match pending with
          | 0 =>
              match byteCount? byte with
              | none => none
              | some 1 =>
                  (address verbatim 0 0 0 cs).map
                    (if byte = 0 then fun (_, rest) => ([], rest)
                    else startingWith (Char.ofNat byte))
              | some count => address verbatim count (count - 1) (leadBits count byte) cs
          | n + 1 =>
              if byte / 0x40 = 0x02 then
                let code := 64 * code + byte % 0x40
                if n = 0 then (address verbatim 0 0 0 cs).map (startingWith (spelled count code))
                else address verbatim count n code cs
              else none
  | c :: cs =>
      if pending ≠ 0 ∨ c = '%' then none
      else if isAddressChar verbatim c then
        (address verbatim 0 0 0 cs).map (startingWith c)
      else some ([], c :: cs)
  | [] => if pending = 0 then some ([], []) else none

/-- Reads an address that is written with a character at least. -/
def address? (verbatim : Bool) (cs : List Char) : Option (List Char × List Char) :=
  (address verbatim 0 0 0 cs).filter fun (_, rest) => rest.length < cs.length

/-- Reads a handle: an exclamation mark, then possibly a name and a second mark. The flag tells
whether the second mark is there. -/
def handle? : List Char → Option (List Char × Bool × List Char)
  | '!' :: cs =>
      match spanName cs with
      | (name, '!' :: rest) => some ('!' :: name ++ ['!'], true, rest)
      | (name, rest) => some ('!' :: name, false, rest)
  | _ => none

/-- Whether a tag may end in front of a text. -/
def endsTag (flow : Bool) : List Char → Bool
  | [] => true
  | c :: _ => isGap c || (flow && c == ',')

/-- Reads a tag: an address in angle brackets, a suffix after a handle, or a suffix after the mark
alone. A mark without a suffix is a tag of its own. -/
def tag? (flow : Bool) (cs : List Char) : Option (Token × List Char) := do
  let (token, rest) ← match cs with
    | '!' :: '<' :: cs =>
        match address? true cs with
        | some (suffix, '>' :: rest) => some (Token.tag "" (String.ofList suffix), rest)
        | _ => none
    | _ =>
        match handle? cs with
        | none => none
        | some (handle, true, rest) =>
            (address? false rest).map fun (suffix, rest) =>
              (Token.tag (String.ofList handle) (String.ofList suffix), rest)
        | some (handle, false, rest) =>
            (address false 0 0 0 rest).map fun (more, rest) =>
              match handle.drop 1 ++ more with
              | [] => (Token.tag "" "!", rest)
              | suffix => (Token.tag "!" (String.ofList suffix), rest)
  if endsTag flow rest then some (token, rest) else none

/-! ## Directives -/

/-- Drops the blanks a text starts with. -/
def skipBlanks (cs : List Char) : List Char := cs.dropWhile isBlank

/-- Reads a part of a version number, of nine digits at most. -/
def versionPart? (cs : List Char) : Option (Nat × List Char) :=
  let (digits, rest) := Decimal.spanDigits cs
  if 0 < digits.length ∧ digits.length ≤ 9 then some (Decimal.ofDigits digits, rest) else none

/-- Reads the value of a version directive. -/
def versionValue? (cs : List Char) : Option (Token × List Char) := do
  let (major, rest) ← versionPart? (skipBlanks cs)
  match rest with
  | '.' :: rest => do
      let (minor, rest) ← versionPart? rest
      some (Token.version major minor, rest)
  | _ => none

/-- Reads the value of a tag directive: a handle and the address it stands for. -/
def tagValue? (cs : List Char) : Option (Token × List Char) := do
  let (handle, closed, rest) ← handle? (skipBlanks cs)
  if closed || handle == ['!'] then
    match rest with
    | [] => none
    | c :: _ =>
        if isBlank c then
          let (expansion, rest) ← address? true (skipBlanks rest)
          if startsGap rest then
            some (Token.tagHandle (String.ofList handle) (String.ofList expansion), rest)
          else none
        else none
  else none

/-- Reads a directive after its percent sign, up to its value. -/
def directive? (cs : List Char) : Option (Token × List Char) :=
  let (name, rest) := spanName cs
  if startsGap rest then
    if name = ['Y', 'A', 'M', 'L'] then versionValue? rest
    else if name = ['T', 'A', 'G'] then tagValue? rest
    else none
  else none

end Stencil.Yaml
