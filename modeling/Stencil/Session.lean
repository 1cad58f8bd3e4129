import Stencil.Failure
import Stencil.Session.Steps

/-!
# Sessions

A whole run, from the words of a command line to an exit code: the inputs are collected, the template is
filled, and the text is published. Nothing is published before everything else has succeeded.

Main statement: `result_prepare` says what is to be published, or which failure ends the run before.
-/

namespace Stencil

open Log

/-- How a run ends. -/
inductive Ending where
  | done
  | failed (f : Failure)
  | refused (r : Refusal)

/-- The exit code of an ending. Asking for the help or the version is no mistake. -/
def Ending.exitCode : Ending → Nat
  | .done => 0
  | .failed f => f.exitCode
  | .refused .help | .refused .version => 0
  | .refused _ => 2

/-- What a run leaves behind. -/
structure Report where
  ending : Ending
  /-- What was written to standard output. -/
  stdout : String
  /-- The line about a failure on standard error. -/
  complaint : Option String
  /-- The lines of the log that are shown. -/
  log : List String
  /-- Whether the log filter of the environment could not be read. -/
  filterIsInvalid : Bool
  files : Files

def Report.exitCode (r : Report) : Nat := r.ending.exitCode

namespace Session

/-- The name and version of the command. -/
def versionLine : String := "stamp 0.3.0"

/-- Makes the text that is to be published. -/
def prepare (c : Command) (s : Circumstances) : Logged String := do
  Logged.note [⟨.debug, "stamp", "starting",
    [Event.flag "in_actions" (Runner.ofEnvironment s.environment).inActions]⟩]
  let sources ← Logged.ofResult (c.sources s.files s.environment)
  let inputs ← collect s sources
  fill inputs s.files c.chain c.policy

/-- **What is published is the filled template of the inputs, and the first step that fails ends the
run.** -/
theorem result_prepare (c : Command) (s : Circumstances) :
    (prepare c s).result =
      (c.sources s.files s.environment).bind fun sources =>
        (Inputs.collect s.files s.input sources).bind fun inputs =>
          inputs.fill s.files c.chain c.policy := by
  simp only [prepare, Logged.result_bind, Logged.result_note, Logged.result_ofResult,
    result_collect, result_fill]
  rfl

def writtenEvent (d : Destination) : Event :=
  ⟨.debug, "stamp::action", "output written", [Event.plain "destination" d.describe]⟩

def failedEvent (f : Failure) : Event :=
  ⟨.error, "stamp", "run failed",
    [Event.plain "kind" f.failureClass.name, Event.count "exit_code" f.exitCode]⟩

/-- What a run of a command has led to, before anything is said about it. -/
structure Outcome where
  outputs : Outputs
  events : List Event
  failure : Option Failure

/-- Runs a command. -/
def outcome (c : Command) (s : Circumstances) : Outcome :=
  let prepared := prepare c s
  match prepared.result with
  | .error f => ⟨⟨s.files, ""⟩, prepared.events, some f⟩
  | .ok text =>
      let p := publish text s.delimiters s.files
        (c.destinations (Runner.ofEnvironment s.environment))
      ⟨p.outputs, prepared.events ++ p.written.map writtenEvent, p.failure⟩

/-- The lines that a filter lets through; a filter that cannot be read lets none through. -/
def shownLines (filter : Option Filter) (events : List Event) : List String :=
  match filter with
  | none => []
  | some f => (events.filter f.shows).map Event.line

/-- Runs a command and reports how it ended. In a step of a workflow a failure is told on standard output,
where the runner reads it. -/
def perform (c : Command) (s : Circumstances) : Report :=
  let runner := Runner.ofEnvironment s.environment
  let filter := Filter.choose? c.verbosity runner s.environment
  let o := outcome c s
  match o.failure with
  | none =>
      { ending := .done, stdout := o.outputs.stdout, complaint := none
        log := shownLines filter o.events, filterIsInvalid := filter.isNone
        files := o.outputs.files }
  | some f =>
      let line := f.line runner.inActions
      { ending := .failed f
        stdout := if runner.inActions then o.outputs.stdout ++ line ++ "\n" else o.outputs.stdout
        complaint := if runner.inActions then none else some line
        log := shownLines filter (o.events ++ [failedEvent f])
        filterIsInvalid := filter.isNone
        files := o.outputs.files }

/-- Runs a command line. -/
def run (words : List String) (s : Circumstances) : Report :=
  match Command.ofWords words s.environment with
  | .ok c => perform c s
  | .error r =>
      { ending := .refused r
        stdout := if r = .version then versionLine ++ "\n" else ""
        complaint := none, log := [], filterIsInvalid := false, files := s.files }

end Session

end Stencil
