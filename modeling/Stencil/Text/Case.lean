import Stencil.Text.CaseTable

/-!
# Letter case

Upper- and lowercase mappings of whole texts by the full mappings of Unicode: a character may map to
several, and a capital sigma that ends a word maps to the final form of the small one.
-/

namespace Stencil.Text

/-- Whether a code point lies in one of the ranges. -/
def inRanges (ranges : List (Nat × Nat)) (n : Nat) : Bool :=
  ranges.any fun (first, last) => first ≤ n && n ≤ last

/-- Whether a code point lies on one of the strided runs. -/
def inRuns (runs : List (Nat × Nat × Nat)) (n : Nat) : Bool :=
  runs.any fun (first, last, stride) => first ≤ n && n ≤ last && (n - first) % stride == 0

/-- The one-character mapping of a code point, by the run that covers it. -/
def mapByRuns (runs : List (Nat × Nat × Nat × Int)) (n : Nat) : Nat :=
  match runs.find? fun (first, last, stride, _) =>
      first ≤ n && n ≤ last && (n - first) % stride == 0 with
  | some (_, _, _, shift) => (Int.ofNat n + shift).toNat
  | none => n

/-- The uppercase mapping of one character. -/
def upperChar (c : Char) : List Char :=
  if c.toNat < 0x80 then [c.toUpper]
  else
    match CaseTable.upperSpecials.lookup c.toNat with
    | some cs => cs.map Char.ofNat
    | none => [Char.ofNat (mapByRuns CaseTable.upperRuns c.toNat)]

/-- The lowercase mapping of one character that stands alone. -/
def lowerChar (c : Char) : List Char :=
  if c.toNat < 0x80 then [c.toLower]
  else
    match CaseTable.lowerSpecials.lookup c.toNat with
    | some cs => cs.map Char.ofNat
    | none => [Char.ofNat (mapByRuns CaseTable.lowerRuns c.toNat)]

def isCased (c : Char) : Bool := inRanges CaseTable.casedRanges c.toNat

/-- Whether a character is passed over when the case of its surroundings is looked at. -/
def isCaseIgnorable (c : Char) : Bool := inRanges CaseTable.caseIgnorableRanges c.toNat

/-- Whether a character is a small letter. -/
def isLowercase (c : Char) : Bool := inRuns CaseTable.lowercaseRuns c.toNat

/-- Whether a character is a capital letter. -/
def isUppercase (c : Char) : Bool := inRuns CaseTable.uppercaseRuns c.toNat

/-- Whether the first character that counts is a cased one. -/
def startsCased (cs : List Char) : Bool :=
  match cs.dropWhile isCaseIgnorable with
  | c :: _ => isCased c
  | [] => false

/-- The lowercase mapping of a text, given the text before it in reverse. -/
def lowerFrom (before : List Char) : List Char → List Char
  | [] => []
  | c :: cs =>
      (if c = 'Σ' then
        if startsCased before && !startsCased cs then ['ς'] else ['σ']
      else lowerChar c) ++ lowerFrom (c :: before) cs

/-- The lowercase mapping of a text. -/
def lowerText (cs : List Char) : List Char := lowerFrom [] cs

/-- The uppercase mapping of a text. -/
def upperText (cs : List Char) : List Char := cs.flatMap upperChar

/-- A text with its first character in uppercase and the others in lowercase. -/
def capitalized : List Char → List Char
  | [] => []
  | c :: cs => upperChar c ++ lowerText cs

def isAsciiPunctuation (c : Char) : Bool :=
  0x21 ≤ c.toNat && c.toNat ≤ 0x7E && !c.isAlphanum

/-- The ASCII letters in lowercase, every other character as it is. -/
def asciiLower (s : String) : String := String.ofList (s.toList.map Char.toLower)

end Stencil.Text
