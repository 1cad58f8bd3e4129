import Stencil.Yaml.Token.Gap
import Stencil.Decimal.Numeral

/-!
# Plain and quoted scalars

The scalars that are written without an indicator of their own and those between quotes. All three
are read one character at a time, with the white space since the last word kept aside until it is
known whether another word follows.
-/

namespace Stencil.Yaml

/-! ## Plain scalars -/

/-- A plain scalar as it was read: its text, what follows it and the white space after it, and
whether that white space crossed a line end. -/
structure Plain where
  text : List Char
  rest : List Char
  broken : Bool
  deriving DecidableEq, Repr

/-- The characters that end a plain scalar inside brackets. -/
def isFlowIndicator (c : Char) : Bool :=
  c == ',' || c == '[' || c == ']' || c == '\x7b' || c == '\x7d'

/-- Whether a plain scalar ends in front of a character because of that character. A comment starts
only after white space. -/
def endsPlain (flow : Bool) (afterGap : Bool) (c : Char) (cs : List Char) : Bool :=
  (afterGap && c == '#') || (c == ':' && startsGap cs) || (flow && isFlowIndicator c)

/-- Whether a colon stands where none may stand inside brackets. -/
def strayColon (flow : Bool) (c : Char) (cs : List Char) : Bool :=
  flow && c == ':' &&
    match cs with
    | [] => false
    | d :: _ => isFlowIndicator d || d == '?'

/-- Whether the line that was reached lies outside the scalar: at a mark between documents, or,
outside brackets, left of the margin. -/
def leavesPlain (flow : Bool) (margin : Nat) (column : Option Nat) (cs : List Char) : Bool :=
  match column with
  | none => false
  | some k => (k == 0 && startsDocumentMark cs) || (!flow && k < margin)

/-- Reads a plain scalar on from a place inside it. -/
def plain (flow : Bool) (margin : Nat) (gap : Gap) (afterGap : Bool) : List Char → Option Plain
  | [] => some ⟨[], [], gap.isBroken⟩
  | c :: cs =>
      if returnsBeforeNewline c cs then plain flow margin gap true cs
      else if isBlank c then
        if c = '\t' ∧ gap.column?.any (· < margin) then none
        else plain flow margin (gap.addBlank c) true cs
      else if isBreak c then plain flow margin (gap.addBreak c) true cs
      else if leavesPlain flow margin gap.column? (c :: cs) then
        some ⟨[], c :: cs, gap.isBroken⟩
      else if afterGap && c == '#' then some ⟨[], c :: cs, gap.isBroken⟩
      else if strayColon flow c cs then none
      else if endsPlain flow afterGap c cs then some ⟨[], c :: cs, gap.isBroken⟩
      else
        (plain flow margin .empty false cs).map fun p =>
          { p with text := gap.text ++ c :: p.text }

/-! ## Quoted scalars -/

/-- Whether a quoted scalar runs into a mark between documents. -/
def meetsDocumentMark (gap : Gap) (cs : List Char) : Bool :=
  gap.column? == some 0 && startsDocumentMark cs

/-- Reads a single-quoted scalar on from a place inside it: the text up to the closing quote, and the
text after it. A quote that is doubled stands for itself. -/
def singleQuoted (gap : Gap) : List Char → Option (List Char × List Char)
  | [] => none
  | c :: cs =>
      if returnsBeforeNewline c cs then singleQuoted gap cs
      else if isBlank c then singleQuoted (gap.addBlank c) cs
      else if isBreak c then singleQuoted (gap.addBreak c) cs
      else if meetsDocumentMark gap (c :: cs) then none
      else if c = '\'' then
        match cs with
        | '\'' :: cs => (singleQuoted .empty cs).map fun (s, r) => (gap.text ++ '\'' :: s, r)
        | _ => some (gap.text, cs)
      else (singleQuoted .empty cs).map fun (s, r) => (gap.text ++ c :: s, r)

/-- What the letter after a backslash calls for. -/
inductive Escape where
  | char (c : Char)
  | code (digits : Nat)
  deriving DecidableEq, Repr

/-- The meaning of the letter after a backslash. -/
def Escape.ofLetter? (c : Char) : Option Escape :=
  if c = '0' then some (.char '\x00')
  else if c = 'a' then some (.char '\x07')
  else if c = 'b' then some (.char '\x08')
  else if c = 't' ∨ c = '\t' then some (.char '\t')
  else if c = 'n' then some (.char '\n')
  else if c = 'v' then some (.char '\x0b')
  else if c = 'f' then some (.char '\x0c')
  else if c = 'r' then some (.char '\r')
  else if c = 'e' then some (.char '\x1b')
  else if c = ' ' ∨ c = '"' ∨ c = '/' ∨ c = '\\' then some (.char c)
  else if c = 'N' then some (.char '\u0085')
  else if c = '_' then some (.char '\u00a0')
  else if c = 'L' then some (.char '\u2028')
  else if c = 'P' then some (.char '\u2029')
  else if c = 'x' then some (.code 2)
  else if c = 'u' then some (.code 4)
  else if c = 'U' then some (.code 8)
  else none

/-- The character of a code point; surrogates and numbers past the last plane have none. -/
def charOfCode? (n : Nat) : Option Char := if n.isValidChar then some (Char.ofNat n) else none

/-- Where the reader of a double-quoted scalar is: between characters, after a backslash, or among
the digits of a code point. -/
inductive Place where
  | text (gap : Gap)
  | escape
  | code (digits value : Nat)
  deriving DecidableEq, Repr

/-- Reads a double-quoted scalar on from a place inside it: the text up to the closing quote, and the
text after it. -/
def doubleQuoted (place : Place) : List Char → Option (List Char × List Char)
  | [] => none
  | c :: cs =>
      match place with
      | .text gap =>
          if returnsBeforeNewline c cs then doubleQuoted (.text gap) cs
          else if isBlank c then doubleQuoted (.text (gap.addBlank c)) cs
          else if isBreak c then doubleQuoted (.text (gap.addBreak c)) cs
          else if meetsDocumentMark gap (c :: cs) then none
          else if c = '"' then some (gap.text, cs)
          else if c = '\\' then (doubleQuoted .escape cs).map fun (s, r) => (gap.text ++ s, r)
          else (doubleQuoted (.text .empty) cs).map fun (s, r) => (gap.text ++ c :: s, r)
      | .escape =>
          if returnsBeforeNewline c cs then doubleQuoted .escape cs
          else if isBreak c then doubleQuoted (.text .joined) cs
          else
            match Escape.ofLetter? c with
            | none => none
            | some (.char x) => (doubleQuoted (.text .empty) cs).map fun (s, r) => (x :: s, r)
            | some (.code digits) => doubleQuoted (.code digits 0) cs
      | .code digits value =>
          match Decimal.hexDigit? c with
          | none => none
          | some d =>
              let value := 16 * value + d
              if digits ≤ 1 then
                match charOfCode? value with
                | none => none
                | some x => (doubleQuoted (.text .empty) cs).map fun (s, r) => (x :: s, r)
              else doubleQuoted (.code (digits - 1) value) cs

end Stencil.Yaml
