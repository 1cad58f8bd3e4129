import Stencil.Yaml.Token.Character

/-!
# Block scalars

Scalars whose lines are marked by their indentation. A header says whether lines are folded, how many
columns the lines are indented by when the first line does not show it, and what becomes of the line
ends after the last line.
-/

namespace Stencil.Yaml

/-- What becomes of the line ends after the last line: all are dropped, one is kept, or all are. -/
inductive Chomping where
  | strip
  | clip
  | keep
  deriving DecidableEq, Repr

/-- The header of a block scalar. -/
structure BlockHeader where
  chomping : Chomping
  /-- The indentation asked for, in columns past the enclosing block. -/
  increment : Option Nat
  deriving DecidableEq, Repr

/-- The chomping that a sign asks for. -/
def chomping? (c : Char) : Option Chomping :=
  if c = '-' then some .strip else if c = '+' then some .keep else none

/-- Reads a digit of indentation, which is not zero, from the front of a text. -/
def increment? : List Char → Option (Option Nat × List Char)
  | [] => some (none, [])
  | c :: cs =>
      if c = '0' then none
      else if c.isDigit then some (some (c.toNat - '0'.toNat), cs)
      else some (none, c :: cs)

/-- Reads the signs of a header, in either order. -/
def blockSigns? : List Char → Option (BlockHeader × List Char)
  | [] => some (⟨.clip, none⟩, [])
  | c :: cs =>
      match chomping? c with
      | some chomping => (increment? cs).map fun (n, rest) => (⟨chomping, n⟩, rest)
      | none =>
          match increment? (c :: cs) with
          | none => none
          | some (none, rest) => some (⟨.clip, none⟩, rest)
          | some (some n, []) => some (⟨.clip, some n⟩, [])
          | some (some n, d :: rest) =>
              match chomping? d with
              | some chomping => some (⟨chomping, some n⟩, rest)
              | none => some (⟨.clip, some n⟩, d :: rest)

/-- Drops the rest of a line, which holds blanks and a comment at most, with its end. -/
def lineEnd? (cs : List Char) : Option (List Char) :=
  let rest := cs.dropWhile isBlank
  let rest := if rest.head? == some '#' then rest.dropWhile (!isBreak ·) else rest
  match rest with
  | [] => some []
  | '\r' :: '\n' :: rest => some rest
  | c :: rest => if isBreak c then some rest else none

/-- The widest indentation among the blank lines a text starts with and the line after them; none if
a tab stands in it. -/
def widestIndent? (column widest : Nat) : List Char → Option Nat
  | [] => some (max widest column)
  | c :: cs =>
      if c = ' ' then widestIndent? (column + 1) widest cs
      else if c = '\t' then none
      else if returnsBeforeNewline c cs then widestIndent? column widest cs
      else if isBreak c then widestIndent? 0 (max widest column) cs
      else some (max widest column)

/-- Where the reader of a block scalar is: in a line, or among the line ends and the indentation
between two lines. `startsBlank` tells of the last line whether it starts with a blank. -/
inductive BlockPlace where
  | line (startsBlank : Bool)
  | between (startsBlank : Bool) (first : Option Char) (more : List Char) (column : Nat)
  deriving DecidableEq, Repr

/-- The line ends between two lines of a scalar. A folded newline between two lines that start with a
word becomes a space, or nothing when further line ends follow. -/
def blockGap (folded : Bool) (startsBlank nextBlank : Bool) (first : Option Char)
    (more : List Char) : List Char :=
  if folded && first == some '\n' && !startsBlank && !nextBlank then
    if more = [] then [' '] else more
  else first.toList ++ more

/-- The line ends after the last line. -/
def blockTail (chomping : Chomping) (first : Option Char) (more : List Char) : List Char :=
  match chomping with
  | .strip => []
  | .clip => first.toList
  | .keep => first.toList ++ more

/-- Reads the lines of a block scalar: their text, and the text after the scalar. -/
def blockLines (folded : Bool) (chomping : Chomping) (indent : Nat) (place : BlockPlace) :
    List Char → Option (List Char × List Char)
  | [] =>
      match place with
      | .line _ => some ([], [])
      | .between _ first more _ => some (blockTail chomping first more, [])
  | c :: cs =>
      if returnsBeforeNewline c cs then blockLines folded chomping indent place cs
      else
        match place with
        | .line startsBlank =>
            if isBreak c then
              blockLines folded chomping indent (.between startsBlank (some (breakChar c)) [] 0) cs
            else
              (blockLines folded chomping indent place cs).map fun (s, r) => (c :: s, r)
        | .between startsBlank first more column =>
            if column < indent ∧ c = ' ' then
              blockLines folded chomping indent (.between startsBlank first more (column + 1)) cs
            else if column < indent ∧ c = '\t' then none
            else if isBreak c then
              blockLines folded chomping indent
                (.between startsBlank first (more ++ [breakChar c]) 0) cs
            else if column < indent then some (blockTail chomping first more, c :: cs)
            else
              (blockLines folded chomping indent (.line (isBlank c)) cs).map fun (s, r) =>
                (blockGap folded startsBlank (isBlank c) first more ++ c :: s, r)

/-- Reads a block scalar after its indicator. The margin is the least column of what belongs to the
enclosing block. -/
def blockScalar (folded : Bool) (margin : Nat) (cs : List Char) :
    Option (List Char × List Char) := do
  let (header, rest) ← blockSigns? cs
  let rest ← lineEnd? rest
  let indent ← match header.increment with
    | some n => some (margin - 1 + n)
    | none => (widestIndent? 0 0 rest).map fun widest => max (max widest margin) 1
  blockLines folded header.chomping indent (.between false none [] 0) rest

end Stencil.Yaml
