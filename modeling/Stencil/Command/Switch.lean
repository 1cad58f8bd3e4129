import Stencil.Format

/-!
# Switches

What can stand on a command line: settings, which take a value, and flags, which take none. Some have a
letter besides their name.
-/

namespace Stencil

/-- What a format can be set to: one format, or all of them in order. -/
inductive FormatChoice where
  | all
  | only (format : Format)
  deriving DecidableEq, Repr

/-- The choice that a word names. Capitals make a difference here. -/
def FormatChoice.ofWord? : String → Option FormatChoice
  | "auto" => some .all
  | "json" => some (.only .json)
  | "yaml" => some (.only .yaml)
  | "env" | "dotenv" => some (.only .keyValue)
  | _ => none

/-- The format that a choice forces, if it forces one. -/
def FormatChoice.format? : FormatChoice → Option Format
  | .all => none
  | .only format => some format

/-- What takes a value on a command line. -/
inductive Setting where
  | templateText
  | templateFile
  | templateVars
  | varsFile
  | inputs
  | output
  | format
  deriving DecidableEq, Repr

/-- Whether a setting can have a value: paths are not empty, and a format has a name. -/
def Setting.accepts (s : Setting) (value : String) : Bool :=
  match s with
  | .templateText | .templateVars => true
  | .templateFile | .varsFile | .inputs | .output => value != ""
  | .format => (FormatChoice.ofWord? value).isSome

/-- What takes no value on a command line. -/
inductive Flag where
  | noEscape
  | verbose
  | quiet
  | help
  | version
  deriving DecidableEq, Repr

/-- What a name on a command line stands for. -/
inductive Switch where
  | setting (s : Setting)
  | flag (f : Flag)
  deriving DecidableEq, Repr

def Switch.ofName? : String → Option Switch
  | "template-text" => some (.setting .templateText)
  | "template-file" => some (.setting .templateFile)
  | "template-vars" => some (.setting .templateVars)
  | "vars-file" => some (.setting .varsFile)
  | "inputs" => some (.setting .inputs)
  | "output" => some (.setting .output)
  | "format" => some (.setting .format)
  | "no-escape" => some (.flag .noEscape)
  | "verbose" => some (.flag .verbose)
  | "quiet" => some (.flag .quiet)
  | "help" => some (.flag .help)
  | "version" => some (.flag .version)
  | _ => none

def Switch.ofLetter? : Char → Option Switch
  | 'o' => some (.setting .output)
  | 'v' => some (.flag .verbose)
  | 'q' => some (.flag .quiet)
  | 'h' => some (.flag .help)
  | 'V' => some (.flag .version)
  | _ => none

end Stencil
