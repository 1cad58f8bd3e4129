import Stencil.Command.Switch

/-!
# Reading a command line

A command line is read word by word into a draft. A setting takes its value from its own word or from the
next one, and it is settled only when something else is met or the words end. So a setting that lacks its
value, or has one that it cannot have, is told of after a word that nothing is known about.
-/

namespace Stencil

/-- Why a command line is no command. -/
inductive Refusal where
  /-- A word stands for nothing that is known. -/
  | unknownArgument
  /-- A setting has no value, or one that it cannot have. -/
  | invalidValue
  /-- Something is said twice, or two things exclude each other. -/
  | conflict
  /-- A flag has a value. -/
  | tooManyValues
  /-- The help was asked for. -/
  | help
  /-- The version was asked for. -/
  | version
  deriving DecidableEq, Repr

/-- A command line that is being read. -/
structure Draft where
  /-- The settings that have their values. -/
  values : List (Setting × String)
  /-- The setting that is to be settled next, with its value when that was met. -/
  pending : Option (Setting × Option String)
  noEscape : Bool
  verbose : Nat
  quiet : Bool
  deriving Repr

namespace Draft

def empty : Draft := ⟨[], none, false, 0, false⟩

def value? (d : Draft) (s : Setting) : Option String := d.values.lookup s

def settle (d : Draft) : Except Refusal Draft :=
  match d.pending with
  | none => .ok d
  | some (_, none) => .error .invalidValue
  | some (s, some value) =>
      if (d.value? s).isSome then .error .conflict
      else if !s.accepts value then .error .invalidValue
      else .ok { d with values := d.values ++ [(s, value)], pending := none }

/-- Opens a setting whose value is in the next word. -/
def await (d : Draft) (s : Setting) : Except Refusal Draft :=
  d.settle.map fun d => { d with pending := some (s, none) }

/-- Gives a setting a value that stands in its own word. -/
def give (d : Draft) (s : Setting) (value : String) : Except Refusal Draft :=
  match d.settle with
  | .error r => .error r
  | .ok d => { d with pending := some (s, some value) }.settle

/-- The highest count of a flag that can be repeated. -/
def countLimit : Nat := 255

def raise (d : Draft) (f : Flag) : Except Refusal Draft :=
  match d.settle with
  | .error r => .error r
  | .ok d =>
      match f with
      | .help => .error .help
      | .version => .error .version
      | .verbose => .ok { d with verbose := min countLimit (d.verbose + 1) }
      | .noEscape => if d.noEscape then .error .conflict else .ok { d with noEscape := true }
      | .quiet => if d.quiet then .error .conflict else .ok { d with quiet := true }

/-- Takes a word after two dashes: a name, with or without an equals sign and a value. -/
def takeName (d : Draft) (word : List Char) : Except Refusal Draft :=
  let name := String.ofList (word.takeWhile (· ≠ '='))
  let value : Option String :=
    match word.dropWhile (· ≠ '=') with
    | _ :: value => some (String.ofList value)
    | [] => none
  match Switch.ofName? name, value with
  | none, _ => .error .unknownArgument
  | some (.setting s), some value => d.give s value
  | some (.setting s), none => d.await s
  | some (.flag _), some _ => .error .tooManyValues
  | some (.flag f), none => d.raise f

/-- Takes the letters after one dash. What follows the letter of a setting is its value, with or without
an equals sign. -/
def takeLetters (d : Draft) : List Char → Except Refusal Draft
  | [] => .ok d
  | c :: rest =>
      match Switch.ofLetter? c with
      | none => .error .unknownArgument
      | some (.flag f) =>
          match d.raise f with
          | .error r => .error r
          | .ok d => takeLetters d rest
      | some (.setting s) =>
          match rest with
          | [] => d.await s
          | '=' :: value => d.give s (String.ofList value)
          | value => d.give s (String.ofList value)

/-- Takes a word that starts with no dash, or is one: the value of a setting. -/
def takeValue (d : Draft) (word : String) : Except Refusal Draft :=
  match d.pending with
  | some (s, none) => .ok { d with pending := some (s, some word) }
  | _ => .error .unknownArgument

def take (d : Draft) (word : String) : Except Refusal Draft :=
  match word.toList with
  | '-' :: '-' :: name => d.takeName name
  | '-' :: c :: letters => d.takeLetters (c :: letters)
  | _ => d.takeValue word

/-- Takes words to their end. Two dashes alone say that no switch follows, and nothing else can. -/
def takeAll (d : Draft) : List String → Except Refusal Draft
  | [] => d.settle
  | "--" :: rest => if rest = [] then d.settle else .error .unknownArgument
  | word :: rest =>
      match d.take word with
      | .error r => .error r
      | .ok d => takeAll d rest

end Draft

end Stencil
