import Stencil.Template.Value
import Stencil.Decimal.Layout
import Stencil.Text.Quoted

/-!
# The text of values

A value has two texts. Standing alone it is written plainly: a text is itself, what is undefined is
nothing. As a part of another value it is written so that the parts stay apart: texts are quoted and
what is undefined says so. The plain text of a value with parts is made of the inner texts of the
parts.
-/

namespace Stencil.Template

open Stencil.Decimal

/-! ## Numbers -/

/-- A number that stands alone is positional whatever its size. -/
def plainLayout : Layout := ⟨-400, 400, false⟩

/-- A number inside another value is positional from four places after the point to sixteen before
it. -/
def innerLayout : Layout := ⟨-4, 15, false⟩

def nonFiniteText (x : Float) : List Char :=
  if x.isNaN then ['N', 'a', 'N']
  else if isNegative x then ['-', 'i', 'n', 'f']
  else ['i', 'n', 'f']

def floatText (layout : Layout) (x : Float) : List Char :=
  (layout.float? x).getD (nonFiniteText x)

/-- The text of a truth value. -/
def boolText (b : Bool) : List Char :=
  if b then ['T', 'r', 'u', 'e'] else ['F', 'a', 'l', 's', 'e']

/-- Texts with a comma and a blank between them. -/
def commaSeparated (texts : List (List Char)) : List Char :=
  (texts.intersperse [',', ' ']).flatten

def quotedChars (s : String) : List Char := (Text.quoted s).toList

/-! ## Inner and plain texts -/

/-- The text of an iterator whose items are not counted before they are gone through. -/
def iteratorText : List Char := "<iterator>".toList

mutual

/-- The text of a value that is a part of another. -/
def Value.innerText : Value → List Char
  | .undefined => "undefined".toList
  | .none => "None".toList
  | .bool b => boolText b
  | .int n => ofInt n.value
  | .float x => floatText innerLayout x.value
  | .string s _ => quotedChars s
  | .iterator _ .uncounted _ | .iterator _ .failing _ => iteratorText
  | .list items _ | .iterator items _ _ => '[' :: commaSeparated (innerTexts items) ++ [']']
  | .group key items _ =>
      '[' :: commaSeparated [key.innerText, '[' :: commaSeparated (innerTexts items) ++ [']']] ++ [']']
  | .map entries _ | .overlay entries _ _ | .keywords entries =>
      '\x7b' :: commaSeparated (entryTexts entries) ++ ['\x7d']
  | .record text _ _ => text.toList
  | .routine r => ("<macro " ++ r.name ++ ">").toList
  | .function f => f.text.toList
  | .loop _ => "<loop>".toList
  | .space _ => ['\x7b', '\x7d']

def innerTexts : List Value → List (List Char)
  | [] => []
  | v :: vs => v.innerText :: innerTexts vs

def entryTexts : List (Value × Value) → List (List Char)
  | [] => []
  | (k, v) :: es => (k.innerText ++ ':' :: ' ' :: v.innerText) :: entryTexts es

end

/-- The text of a value that stands alone. -/
def Value.plainText : Value → List Char
  | .undefined => []
  | .float x => floatText plainLayout x.value
  | .string s _ => s.toList
  | v => v.innerText

/-- The text of a value that stands alone, as a string. -/
def Value.plain (v : Value) : String := String.ofList v.plainText

/-! ## The text over several lines -/

/-- What stands in front of a part at a depth of nesting. -/
def lineStart (depth : Nat) : List Char := '\n' :: List.replicate (4 * depth) ' '

/-- Parts on lines of their own between two brackets. -/
def bracketed (open_ close : Char) (depth : Nat) (parts : List (List Char)) : List Char :=
  if parts.isEmpty then [open_, close]
  else
    open_ :: (parts.flatMap fun part => lineStart (depth + 1) ++ part ++ [',']) ++ lineStart depth
      ++ [close]

mutual

/-- The text of a value with each of its parts on a line of its own. -/
def Value.layeredText (depth : Nat) : Value → List Char
  | .iterator _ .uncounted _ | .iterator _ .failing _ => iteratorText
  | .list items _ | .iterator items _ _ =>
      bracketed '[' ']' depth (layeredTexts (depth + 1) items)
  | .group key items _ =>
      bracketed '[' ']' depth [key.layeredText (depth + 1),
        bracketed '[' ']' (depth + 1) (layeredTexts (depth + 2) items)]
  | .map entries _ | .overlay entries _ _ | .keywords entries =>
      bracketed '\x7b' '\x7d' depth (layeredEntries (depth + 1) entries)
  | v => v.innerText

/-- The texts of items over several lines. -/
def layeredTexts (depth : Nat) : List Value → List (List Char)
  | [] => []
  | v :: vs => v.layeredText depth :: layeredTexts depth vs

/-- The texts of the entries of a mapping over several lines. -/
def layeredEntries (depth : Nat) : List (Value × Value) → List (List Char)
  | [] => []
  | (k, v) :: es =>
      (k.layeredText depth ++ ':' :: ' ' :: v.layeredText depth) :: layeredEntries depth es

end

end Stencil.Template
