import Stencil.Failure
import Stencil.Text.Lines
import Stencil.Text.Occurrence

/-!
# Outputs of a step

A step hands its outputs to the workflow in a file. An entry opens with the name of the output and a
delimiter, the lines of the value follow, and the delimiter closes it. As the delimiter occurs neither in
the name nor in the value, no value can close its own entry or open another.

Main statement: an entry is written exactly when the delimiter occurs in neither (`compose?_eq_ok_iff`).
-/

namespace Stencil

namespace StepOutput

/-- What every delimiter starts with. -/
def delimiterHead : String := "ghadelimiter_"

/-- The delimiter that an identifier makes. -/
def delimiter (id : String) : String := delimiterHead ++ id

/-- The lines of an entry. -/
def written (delimiter name value : String) : String :=
  name ++ "<<" ++ delimiter ++ "\n" ++ value ++ "\n" ++ delimiter ++ "\n"

/-- Whether a delimiter cannot be told from a part of an output. -/
def isAmbiguous (delimiter name value : String) : Bool :=
  Text.occursIn delimiter.toList name.toList || Text.occursIn delimiter.toList value.toList

def compose? (delimiter name value : String) : Except OutputFault String :=
  if isAmbiguous delimiter name value then .error (.containsDelimiter delimiter)
  else .ok (written delimiter name value)

/-- **An entry is written exactly when its delimiter occurs neither in the name nor in the value.** -/
theorem compose?_eq_ok_iff {delimiter name value text : String} :
    compose? delimiter name value = .ok text ↔
      (¬ delimiter.toList <:+: name.toList ∧ ¬ delimiter.toList <:+: value.toList)
        ∧ text = written delimiter name value := by
  unfold compose? isAmbiguous
  simp only [Bool.or_eq_true, Text.occursIn_iff]
  split
  · rename_i h
    constructor
    · intro h'; contradiction
    · rintro ⟨⟨h1, h2⟩, _⟩
      rcases h with h | h <;> contradiction
  · rename_i h
    rw [not_or] at h
    simp [h, eq_comm]

/-! ## Reading -/

/-- An entry whose value is still being read: the lines so far, in order. -/
structure Open where
  name : List Char
  delimiter : List Char
  lines : List (List Char)

/-- Reads the lines of a file of outputs, inside an entry or between entries. A line with two signs
less-than opens an entry, a line with an equals sign is one, and no entry may be left open. -/
def ofLines? : Option Open → List (List Char) → Option (List (List Char × List Char))
  | none, [] => some []
  | some _, [] => none
  | none, line :: rest =>
      match Text.cutAt ['<', '<'] line with
      | some (name, delimiter) => ofLines? (some ⟨name, delimiter, []⟩) rest
      | none =>
          match Text.cutAt ['='] line with
          | some entry => (ofLines? none rest).map (entry :: ·)
          | none => none
  | some e, line :: rest =>
      if line = e.delimiter then
        (ofLines? none rest).map ((e.name, Text.join ['\n'] e.lines) :: ·)
      else ofLines? (some { e with lines := e.lines ++ [line] }) rest

/-- The lines of a text that ends each of them with a newline; what is left after the last newline is
a line when there is any. -/
def linesOf (cs : List Char) : List (List Char) :=
  let pieces := Text.split '\n' cs
  if pieces.getLast? = some [] then pieces.dropLast else pieces

/-- The outputs in a file of outputs, as the workflow reads it. -/
def ofText? (cs : List Char) : Option (List (List Char × List Char)) := ofLines? none (linesOf cs)

end StepOutput

end Stencil
