import Stencil.Environment
import Stencil.Publication.Entry

/-!
# Publication

The rendered text goes to standard output or, in a step of a workflow, into the file of the step's
outputs; it can go into a file besides. Every destination is checked before anything is written, and the
entry among the outputs is written last, so that a run that fails leaves no output behind for the next
step.
-/

namespace Stencil

/-- Where a rendered text goes. -/
inductive Destination where
  /-- To standard output, as a line. -/
  | standardOutput
  /-- Into a file, in place of what it holds. -/
  | file (path : Path)
  /-- Into a file of outputs, as an entry at its end. -/
  | stepOutput (path : Path)
  deriving DecidableEq, Repr

namespace Destination

/-- What a destination is called in messages. -/
def describe : Destination → String
  | .standardOutput => "stdout"
  | .file path => path.text
  | .stepOutput path => "GITHUB_OUTPUT (" ++ path.text ++ ")"

/-- The file that a destination writes to. -/
def path? : Destination → Option Path
  | .standardOutput => none
  | .file path | .stepOutput path => some path

/-- Whether a destination is a file of outputs. -/
def isStepOutput : Destination → Bool
  | .stepOutput _ => true
  | _ => false

/-- What is wrong with a destination before anything is written: the directory of its file does not
exist. -/
def check (fs : Files) (d : Destination) : Option OutputFault :=
  match d.path?.bind Path.parent? with
  | none => none
  | some directory => if fs.holds directory then none else some (.noDirectory directory)

/-- The destinations of a run. -/
def ofRunner (runner : Runner) (outputFile : Option Path) : List Destination :=
  (match runner.outputFile with
    | some path => .stepOutput path
    | none => .standardOutput) ::
  match outputFile with
  | some path => [.file path]
  | none => []

end Destination

/-- What writing has led to. -/
structure Outputs where
  files : Files
  stdout : String

namespace Outputs

/-- The name that the rendered text has among the outputs of a step. -/
def outputName : String := "updated-text"

/-- Adds an entry for a text to a file of outputs. The file is there even when the entry cannot be
written. -/
def addEntry (o : Outputs) (path : Path) (delimiter text : String) : Outputs × Option OutputFault :=
  match o.files.append path "" with
  | .error fault => (o, some (.file fault))
  | .ok opened =>
      match StepOutput.compose? delimiter outputName text with
      | .error fault => ({ o with files := opened }, some fault)
      | .ok entry =>
          match opened.append path entry with
          | .error fault => ({ o with files := opened }, some (.file fault))
          | .ok files => ({ o with files := files }, none)

/-- Writes a text to a destination. A write to standard output never fails here, and a write to a file fails for
its path only. Closed pipes, missing permissions and full disks are not modelled; their errors would be passed on
like those. -/
def write (o : Outputs) (delimiter text : String) (d : Destination) : Outputs × Option OutputFault :=
  match d.check o.files with
  | some fault => (o, some fault)
  | none =>
      match d with
      | .standardOutput => ({ o with stdout := o.stdout ++ text ++ "\n" }, none)
      | .file path =>
          match o.files.overwrite path text with
          | .error fault => (o, some (.file fault))
          | .ok files => ({ o with files := files }, none)
      | .stepOutput path => o.addEntry path delimiter text

end Outputs

/-- What a publication has led to: what was written, to which destinations in which order, and the
failure that ended it. -/
structure Publication where
  outputs : Outputs
  written : List Destination
  failure : Option Failure

namespace Publication

def failureOf (d : Destination) (fault : OutputFault) : Failure := .output d.describe fault

/-- The first failure of checking destinations. -/
def checkAll (fs : Files) (ds : List Destination) : Option Failure :=
  ds.findSome? fun d => (d.check fs).map (failureOf d)

/-- The order in which destinations are written: files of outputs come last. -/
def ordered (ds : List Destination) : List Destination :=
  ds.filter (!·.isStepOutput) ++ ds.filter (·.isStepOutput)

/-- Writes a text to destinations one after the other until one fails. Every destination has a delimiter
of its own. -/
def writeAll (text : String) (delimiters : Nat → String) (o : Outputs) :
    List Destination → Publication
  | [] => ⟨o, [], none⟩
  | d :: ds =>
      match o.write (delimiters 0) text d with
      | (o, some fault) => ⟨o, [], some (failureOf d fault)⟩
      | (o, none) =>
          let rest := writeAll text (fun n => delimiters (n + 1)) o ds
          { rest with written := d :: rest.written }

end Publication

/-- Publishes a text to destinations. -/
def publish (text : String) (delimiters : Nat → String) (fs : Files) (ds : List Destination) :
    Publication :=
  match Publication.checkAll fs ds with
  | some failure => ⟨⟨fs, ""⟩, [], some failure⟩
  | none => Publication.writeAll text delimiters ⟨fs, ""⟩ (Publication.ordered ds)

end Stencil
