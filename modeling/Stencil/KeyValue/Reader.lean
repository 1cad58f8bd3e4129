import Stencil.KeyValue.Quoted
import Stencil.Text.Blank
import Stencil.Text.Lines

/-!
# Reading KEY=VALUE text

One assignment a line, as in a file of environment settings: blank lines and lines that start with
`#` are passed over, `export ` may stand before the key, and a quoted value may go on over several
lines. Reading is strict: one bad statement refuses the whole text, and the fault names the line on
which the statement starts.
-/

namespace Stencil.KeyValue

open Stencil.Text

/-- What is wrong with a statement. -/
inductive Fault where
  | noAssignment
  | invalidKey (key : String)
  | unterminated
  | textAfterQuote (trailing : String)
  deriving DecidableEq, Repr

def Fault.message : Fault → String
  | .noAssignment => "expected KEY=VALUE"
  | .invalidKey key => "invalid key '" ++ key ++ "'"
  | .unterminated => "unterminated quoted value"
  | .textAfterQuote trailing => "unexpected text after closing quote: '" ++ trailing ++ "'"

/-- A fault with the number of the line its statement starts on; the first line is line one. -/
structure LineFault where
  line : Nat
  fault : Fault
  deriving DecidableEq, Repr

/-- The wording of a fault with its line. -/
def LineFault.message (f : LineFault) : String :=
  "line " ++ toString f.line ++ ": " ++ f.fault.message

/-! ## One statement -/

/-- Whether a key may start with a character. -/
def isKeyStart (c : Char) : Bool := c.isAlpha || c == '_'

/-- Whether a key may go on with a character. -/
def isKeyRest (c : Char) : Bool := c.isAlphanum || c == '_' || c == '.' || c == '-'

/-- Whether a text is a key: a letter or underscore, then letters, digits, underscores, points and
hyphens. -/
def isKey : List Char → Bool
  | [] => false
  | c :: cs => isKeyStart c && cs.all isKeyRest

/-- The text before a comment: a `#` starts one when the character before it is blank. The flag tells
whether that character is. -/
def beforeComment (afterBlank : Bool) : List Char → List Char
  | [] => []
  | c :: cs =>
      if c = '#' ∧ afterBlank then [] else c :: beforeComment (isBlank c) cs

/-- The value of an assignment without quotes. -/
def plainValue (rest : List Char) : List Char := trim (beforeComment false rest)

/-- Drops a word and the blanks after it from the front of a text, when the text starts so. -/
def dropExport (cs : List Char) : List Char :=
  match cs with
  | 'e' :: 'x' :: 'p' :: 'o' :: 'r' :: 't' :: ' ' :: rest => trimStart rest
  | _ => cs

/-- The text before the first equals sign and after it. -/
def splitAssignment? : List Char → Option (List Char × List Char)
  | [] => none
  | c :: cs =>
      if c = '=' then some ([], cs)
      else (splitAssignment? cs).map fun (a, b) => (c :: a, b)

/-- What a line says by itself. -/
inductive Statement where
  | nothing
  | plain (key value : List Char)
  | quoted (key : List Char) (quote : Quote) (first : List Char)
  deriving DecidableEq, Repr

/-- Reads an assignment from the text before its equals sign and the text after it. -/
def assignment (before rest : List Char) : Except Fault Statement :=
  let key := trim before
  if isKey key then
    match trimStart rest with
    | [] => .ok (.plain key (plainValue rest))
    | q :: first =>
        match Quote.ofChar? q with
        | some quote => .ok (.quoted key quote first)
        | none => .ok (.plain key (plainValue rest))
  else .error (.invalidKey (String.ofList key))

/-- Reads one line; the value of a quoted assignment starts on it. -/
def statement (line : List Char) : Except Fault Statement :=
  match trimStart line with
  | [] => .ok .nothing
  | c :: cs =>
      if c = '#' then .ok .nothing
      else
        match splitAssignment? (dropExport (c :: cs)) with
        | none => .error .noAssignment
        | some (before, rest) => assignment before rest

/-- Whether a text may follow a closing quote: nothing but blanks, or a comment. -/
def endsValue (trailing : List Char) : Bool :=
  match trimStart trailing with
  | [] => true
  | c :: _ => c == '#'

/-! ## The whole text -/

/-- An assignment that was read. -/
abbrev Entry := String × String

/-- The assignments of some lines, the first of which has the given number. -/
def entriesFrom (number : Nat) : List (List Char) → Except LineFault (List Entry)
  | [] => .ok []
  | line :: following =>
      match statement line with
      | .error fault => .error ⟨number, fault⟩
      | .ok .nothing => entriesFrom (number + 1) following
      | .ok (.plain key value) =>
          (entriesFrom (number + 1) following).map
            ((String.ofList key, String.ofList value) :: ·)
      | .ok (.quoted key quote first) =>
          match find? quote first following with
          | none => .error ⟨number, .unterminated⟩
          | some found =>
              if endsValue found.trailing then
                (entriesFrom (number + 1 + found.used) (following.drop found.used)).map
                  ((String.ofList key, String.ofList (quote.value found.inner)) :: ·)
              else
                .error ⟨number, .textAfterQuote (String.ofList (trim found.trailing))⟩
termination_by lines => lines.length
decreasing_by all_goals simp only [List.length_cons, List.length_drop]; omega

/-- The assignments of a text, in order. -/
def entries (text : List Char) : Except LineFault (List Entry) := entriesFrom 1 (lines text)

end Stencil.KeyValue
