import Stencil.Files
import Stencil.Format.Chain
import Stencil.Template.Fault
import Stencil.Text.Escape.Line

/-!
# Failures

What ends a run before its text is published everywhere. Every failure belongs to a class, and the class
decides the exit code.

A run that fails says so in one line. In a step of a workflow the line is a command to the runner, and the
message is escaped so that it stays on the line.
-/

namespace Stencil

/-- The classes of failures. -/
inductive FailureClass where
  | missingInput
  | invalidFormat
  | fileNotFound
  | rendering
  | inputOutput
  deriving DecidableEq, Repr

namespace FailureClass

/-- The exit code of a run that ends with a failure of the class. -/
def exitCode : FailureClass → Nat
  | .inputOutput => 1
  | .missingInput => 2
  | .invalidFormat => 3
  | .fileNotFound => 4
  | .rendering => 5

/-- The name of a class in the log. -/
def name : FailureClass → String
  | .missingInput => "MissingInput"
  | .invalidFormat => "InvalidFormat"
  | .fileNotFound => "FileNotFound"
  | .rendering => "Render"
  | .inputOutput => "Io"

theorem exitCode_ne_zero (c : FailureClass) : c.exitCode ≠ 0 := by cases c <;> decide

end FailureClass

/-- Why a text cannot be written to a destination. -/
inductive OutputFault where
  /-- The directory that the file is to go into does not exist. -/
  | noDirectory (directory : Path)
  /-- The file cannot be written. -/
  | file (fault : FileFault)
  /-- The text contains what is to mark its end. -/
  | containsDelimiter (delimiter : String)
  deriving DecidableEq, Repr

def OutputFault.message : OutputFault → String
  | .noDirectory directory => "Parent directory does not exist: " ++ directory.text
  | .file fault => fault.message
  | .containsDelimiter delimiter => "output value contains the delimiter " ++ delimiter

/-- What ends a run. -/
inductive Failure where
  /-- No source has any of the inputs, and one of them is needed. -/
  | missingInput (alternatives : List String)
  /-- No format reads the variables. -/
  | unresolved (cause : Chain.Unresolved)
  /-- An input has a value that is no text. -/
  | notText (input : String) (kind : Kind)
  /-- A file of inputs is no mapping. It has a kind when it can be read at all. -/
  | notInputs (file : Path) (kind : Option Kind)
  /-- A file that an input names does not exist. -/
  | fileNotFound (file : Path)
  /-- A file that an input names cannot be read. -/
  | unreadable (file : Path) (cause : FileFault)
  /-- The template cannot be filled. -/
  | rendering (fault : Template.Fault)
  /-- The text cannot be written to a destination. -/
  | output (destination : String) (cause : OutputFault)

namespace Failure

def ofRead (file : Path) : FileFault → Failure
  | .missing => .fileNotFound file
  | fault => .unreadable file fault

def failureClass : Failure → FailureClass
  | .missingInput _ => .missingInput
  | .unresolved _ | .notText _ _ | .notInputs _ _ => .invalidFormat
  | .fileNotFound _ => .fileNotFound
  | .rendering _ => .rendering
  | .unreadable _ _ | .output _ _ => .inputOutput

/-- The exit code of a run that ends with a failure. -/
def exitCode (f : Failure) : Nat := f.failureClass.exitCode

/-- What an input that is no text is called: lists and mappings have one noun each, whatever the format
of the file they stand in. -/
def inputNoun : Kind → String
  | .array => Kind.sequence.noun
  | .object => Kind.mapping.noun
  | kind => kind.noun

def message : Failure → String
  | .missingInput alternatives =>
      "Missing required input: "
        ++ String.intercalate " or " (alternatives.map fun name => "'" ++ name ++ "'")
  | .unresolved cause => cause.message
  | .notText input kind =>
      "Invalid input: '" ++ input ++ "' must be a string, got " ++ inputNoun kind
  | .notInputs file kind =>
      "Invalid input: inputs file '" ++ file.text ++ "' is not a JSON or YAML mapping"
        ++ match kind with
          | some kind => ": top level is a " ++ inputNoun kind
          | none => ""
  | .fileNotFound file => "no such file or directory, open '" ++ file.text ++ "'"
  | .unreadable file cause => "failed to read '" ++ file.text ++ "': " ++ cause.message
  | .rendering fault => fault.message
  | .output destination cause =>
      "failed to write output to " ++ destination ++ ": " ++ cause.message

def lineOf (message : String) (inActions : Bool) : String :=
  if inActions then "::error::" ++ Text.Line.escaped message else "error: " ++ message

def line (f : Failure) (inActions : Bool) : String := lineOf f.message inActions

end Failure

end Stencil
