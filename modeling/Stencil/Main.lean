import Stencil.Session

/-!
# The command

The outer layer of the command: it reads the variables, the files and the input that a run can ask for,
lets the run happen on them, and carries out what it reports. Nothing is decided here.
-/

namespace Stencil.Main

/-- The environment variables that a run asks for. -/
def consulted : List String :=
  ["GITHUB_ACTIONS", "GITHUB_OUTPUT", "RUNNER_DEBUG", "RUST_LOG", Command.formatVariable,
    Command.noEscapeVariable]
    ++ [Input.templateText, Input.templateFile, Input.templateVars].map Environment.inputVariable

def readEnvironment : IO Environment := do
  let mut env : Environment := []
  for name in consulted do
    if let some value ← IO.getEnv name then
      env := env ++ [(name, value)]
  return env

/-! ## Files -/

/-- What stands where a path leads. -/
def probe (path : String) : IO (Option Entry) := do
  try
    let bytes ← IO.FS.readBinFile path
    return some (.file (Content.ofBytes bytes.data.toList))
  catch
    | .inappropriateType _ code _ => return if code == 21 then some .directory else none
    | _ => return none

/-- The locations on the way that segments describe, each with the path that leads to it. -/
def stations (l : Location) (before : List String) : List String → List (Location × Path)
  | [] => []
  | s :: rest =>
      let next := if Path.isIdle s then l else if s = ".." then l.tail else s :: l
      let before := before ++ [s]
      (next, Path.ofSegments before) :: stations next before rest

/-- The files with what stands along the way of a path. -/
def survey (fs : Files) (p : Path) : IO Files := do
  let mut seen := fs
  for (l, way) in stations (fs.start p) [] p.segments do
    if l != [] && (seen.lookup? l).isNone then
      if let some e ← probe way.text then
        seen := seen.put l e
  return seen

/-- The files that a command names. The file of the template may be named by an input. -/
def surveyCommand (c : Command) (env : Environment) (input : Content) : IO Files := do
  let here ← IO.currentDir
  let top := (Path.segments ⟨here.toString⟩).filter (· != "")
  let mut fs := Files.empty top.reverse
  let named := [c.inputs, c.varsFile, c.output, (Runner.ofEnvironment env).outputFile]
  for path in named.filterMap id do
    fs ← survey fs path
  match (c.sources fs env).bind (Inputs.collect fs input) with
  | .ok ⟨.file path, _⟩ => survey fs path
  | _ => return fs

/-- Writes what a run has put where a path leads. -/
def carryOut (before after : Files) (p : Path) : IO Unit := do
  let .ok l := before.target p | return
  if before.lookup? l != after.lookup? l then
    match after.lookup? l with
    | some (.file (.text s)) => IO.FS.writeFile p.text s
    | some (.file (.binary bytes)) => IO.FS.writeBinFile p.text ⟨bytes.toArray⟩
    | _ => return

/-! ## Input and delimiters -/

partial def readAll (input : IO.FS.Stream) (before : ByteArray) : IO ByteArray := do
  let more ← input.read 65536
  if more.isEmpty then return before else readAll input (before ++ more)

/-- Standard input, when the command reads the variables from there. -/
def readInput (c : Command) : IO Content := do
  if c.varsFile.any Path.isStandardInput then
    return Content.ofBytes (← readAll (← IO.getStdin) ByteArray.empty).data.toList
  else
    return .text ""

/-- A random identifier in the usual form of five groups. -/
def randomIdentifier : IO String := do
  let bytes := (← IO.getRandomBytes 16).data.toList
  let digits := (bytes.zip (List.range 16)).flatMap fun (b, i) =>
    let b := if i = 6 then b &&& 0x0F ||| 0x40 else if i = 8 then b &&& 0x3F ||| 0x80 else b
    let group := if i = 4 ∨ i = 6 ∨ i = 8 ∨ i = 10 then ['-'] else []
    group ++ [Nat.digitChar (b.toNat / 16), Nat.digitChar (b.toNat % 16)]
  return String.ofList digits

/-! ## Telling -/

/-- What is said to someone whose command line is no command. -/
def usage : String :=
  "Usage: stamp [--template-text TEXT] [--template-file PATH] [--template-vars TEXT]\n"
    ++ "             [--vars-file PATH] [--inputs PATH] [-o, --output PATH]\n"
    ++ "             [--format auto|json|yaml|env] [--no-escape] [-v, --verbose] [-q, --quiet]\n"
    ++ "             [-h, --help] [-V, --version]\n"

def tell (r : Report) : IO Unit := do
  let out ← IO.getStdout
  let err ← IO.getStderr
  if r.filterIsInvalid then err.putStrLn "warning: invalid log filter"
  for line in r.log do err.putStrLn line
  out.putStr r.stdout
  if let some line := r.complaint then err.putStrLn line
  match r.ending with
  | .refused .help => out.putStr usage
  | .refused .version => pure ()
  | .refused _ => err.putStr usage
  | _ => pure ()
  out.flush

/-- Runs the command with the words of its command line. -/
def run (words : List String) : IO UInt32 := do
  let env ← readEnvironment
  let delimiter ← randomIdentifier
  match Command.ofWords words env with
  | .error _ =>
      let r := Session.run words ⟨env, Files.empty [], .text "", fun _ => ""⟩
      tell r
      return r.exitCode.toUInt32
  | .ok c =>
      let input ← readInput c
      let before ← surveyCommand c env input
      let r := Session.run words ⟨env, before, input, fun _ => StepOutput.delimiter delimiter⟩
      for path in [c.output, (Runner.ofEnvironment env).outputFile].filterMap id do
        carryOut before r.files path
      tell r
      return r.exitCode.toUInt32

end Stencil.Main

/-- The command. -/
def main (words : List String) : IO UInt32 := Stencil.Main.run words
