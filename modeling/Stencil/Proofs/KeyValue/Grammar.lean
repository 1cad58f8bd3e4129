import Stencil.Proofs.KeyValue.Quoted
import Stencil.Proofs.Text.Lines
import Stencil.Proofs.Text.Trim
import Stencil.Format

/-!
# The grammar of KEY=VALUE texts

What a text of assignments is, said without the reader. A text is a row of clauses: blank lines, comments
and assignments, whose quoted values may take several lines. What is no clause is one of four faults, and
the first of them refuses the text.

Here are the definitions; that the reader follows them is in `Stencil.Proofs.KeyValue.Reading`.
-/

namespace Stencil.KeyValue

open Stencil.Text

/-! ## Parts of a line -/

/-- The characters that a key may start with. -/
def KeyHead (c : Char) : Prop := ('A' ≤ c ∧ c ≤ 'Z') ∨ ('a' ≤ c ∧ c ≤ 'z') ∨ c = '_'

/-- The characters that a key may go on with. -/
def KeyTail (c : Char) : Prop := KeyHead c ∨ ('0' ≤ c ∧ c ≤ '9') ∨ c = '.' ∨ c = '-'

/-- Whether a text is a key. -/
def IsKey (cs : List Char) : Prop :=
  ∃ c rest, cs = c :: rest ∧ KeyHead c ∧ ∀ d ∈ rest, KeyTail d

/-- The word that may stand in front of a key, with the blank after it. -/
def exportWord : List Char := ['e', 'x', 'p', 'o', 'r', 't', ' ']

/-- Whether a line is a comment. -/
def IsComment (line : List Char) : Prop :=
  ∃ indent text, line = indent ++ '#' :: text ∧ AllBlank indent

/-- What a line says behind its indentation and the word `export`; where that word stands it is never
part of the key. -/
inductive Says : List Char → List Char → Prop
  | bare {indent text : List Char} :
      AllBlank indent → StartsSolid text → ¬ exportWord <+: text → Says (indent ++ text) text
  | exported {indent text : List Char} :
      AllBlank indent → Says (indent ++ (exportWord ++ text)) text

/-- The trimmed text before the first equals sign of what a line says, and the text after it. -/
def Assigns (line key rest : List Char) : Prop :=
  ∃ before, Says line (before ++ '=' :: rest) ∧ '=' ∉ before ∧ IsTrim before key

/-- Whether the first character of a text that is no blank opens a quoted value. -/
def Opens (quote : Quote) (rest first : List Char) : Prop :=
  ∃ gap, rest = gap ++ quote.char :: first ∧ AllBlank gap

/-- The text before a comment: before the first number sign that directly follows a blank. -/
def BeforeComment (rest text : List Char) : Prop :=
  (∀ a b, text = a ++ '#' :: b → EndsSolid a)
    ∧ ∃ comment, rest = text ++ comment
      ∧ (comment = [] ∨ comment.head? = some '#' ∧ ¬ EndsSolid text)

/-- The value of an assignment without quotes. -/
def IsPlain (rest value : List Char) : Prop :=
  (∀ quote first, ¬ Opens quote rest first) ∧ ∃ text, BeforeComment rest text ∧ IsTrim text value

/-- Whether a text may follow a closing quote. -/
def Ends (trailing : List Char) : Prop := AllBlank trailing ∨ IsComment trailing

/-! ## Clauses -/

/-- The lines of one clause, and the assignment that it makes if it makes one. -/
inductive Clause : List (List Char) → Option (List Char × List Char) → Prop
  | blank {line : List Char} : AllBlank line → Clause [line] none
  | comment {line : List Char} : IsComment line → Clause [line] none
  | plain {line key rest value : List Char} :
      Assigns line key rest → IsKey key → IsPlain rest value → Clause [line] (some (key, value))
  | quoted {quote : Quote} {line key rest first value trailing : List Char}
      {more : List (List Char)} :
      Assigns line key rest → IsKey key → Opens quote rest first →
      Encloses quote (first :: more) value trailing → Ends trailing →
      Clause (line :: more) (some (key, value))

/-- The lines of a whole text, and the assignments that they make in order. -/
inductive Document : List (List Char) → List (List Char × List Char) → Prop
  | nil : Document [] []
  | cons {taken rest : List (List Char)} {e : Option (List Char × List Char)}
      {es : List (List Char × List Char)} :
      Clause taken e → Document rest es → Document (taken ++ rest) (e.toList ++ es)

/-! ## Faults -/

/-- Lines that start with no clause, and what is wrong with them. -/
inductive Broken : List (List Char) → Fault → Prop
  | noAssignment {line text : List Char} {following : List (List Char)} :
      ¬ AllBlank line → ¬ IsComment line → Says line text → '=' ∉ text →
      Broken (line :: following) .noAssignment
  | invalidKey {line key rest : List Char} {following : List (List Char)} :
      ¬ IsComment line → Assigns line key rest → ¬ IsKey key →
      Broken (line :: following) (.invalidKey (String.ofList key))
  | unterminated {quote : Quote} {line key rest first : List Char} {following : List (List Char)} :
      Assigns line key rest → IsKey key → Opens quote rest first →
      (∀ inner trailing value, join ['\n'] (first :: following) = inner ++ quote.char :: trailing →
        ¬ Inside quote inner value) →
      Broken (line :: following) .unterminated
  | textAfterQuote {quote : Quote} {line key rest first value trailing text : List Char}
      {more following : List (List Char)} :
      Assigns line key rest → IsKey key → Opens quote rest first →
      Encloses quote (first :: more) value trailing → ¬ Ends trailing → IsTrim trailing text →
      Broken (line :: (more ++ following)) (.textAfterQuote (String.ofList text))

/-- How many lines stand before the one at which a text is refused, and the fault there. -/
inductive Refused : List (List Char) → Nat → Fault → Prop
  | here {ls : List (List Char)} {fault : Fault} : Broken ls fault → Refused ls 0 fault
  | later {taken rest : List (List Char)} {e : Option (List Char × List Char)} {n : Nat}
      {fault : Fault} :
      Clause taken e → Refused rest n fault → Refused (taken ++ rest) (taken.length + n) fault

/-! ## Outcomes -/

/-- Assignments as members, in the order in which they are made. -/
def membersOf (es : List (List Char × List Char)) : Members Json :=
  Members.ofEntries (es.map fun e => (String.ofList e.1, Json.string (String.ofList e.2)))

/-- What becomes of a text: blank texts are empty, a text with a fault is refused at its first, and
any other text is a document, which has to make an assignment. -/
inductive Outcome (text : List Char) : Except Rejection Variables → Prop
  | empty : AllBlank text → Outcome text (.error .empty)
  | noKeys {ls : List (List Char)} :
      ¬ AllBlank text → IsLines text ls → Document ls [] → Outcome text (.error .noKeys)
  | refused {ls : List (List Char)} {n : Nat} {fault : Fault} :
      IsLines text ls → Refused ls n fault → Outcome text (.error (.malformed (.line ⟨n + 1, fault⟩)))
  | accepted {ls : List (List Char)} {es : List (List Char × List Char)} {vars : Variables} :
      IsLines text ls → Document ls es → es ≠ [] → vars.members = membersOf es →
      Outcome text (.ok vars)

end Stencil.KeyValue
