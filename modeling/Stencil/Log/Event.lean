import Stencil.Text.Quoted

/-!
# Log events

What a run notes about itself while it goes on. An event has a level, the part of the library that it
comes from, a message and named fields.
-/

namespace Stencil.Log

/-- The levels of events, the gravest first. -/
inductive Level where
  | error
  | warn
  | info
  | debug
  | trace
  deriving DecidableEq, Repr

namespace Level

def name : Level → String
  | .error => "ERROR"
  | .warn => "WARN"
  | .info => "INFO"
  | .debug => "DEBUG"
  | .trace => "TRACE"

/-- The place of a level; graver ones come first. -/
def rank : Level → Nat
  | .error => 1
  | .warn => 2
  | .info => 3
  | .debug => 4
  | .trace => 5

/-- The level of a place; the place before the first stands for no level. -/
def ofRank? : Nat → Option (Option Level)
  | 0 => some none
  | 1 => some (some .error)
  | 2 => some (some .warn)
  | 3 => some (some .info)
  | 4 => some (some .debug)
  | 5 => some (some .trace)
  | _ => none

end Level

/-- Something that a run notes. -/
structure Event where
  level : Level
  /-- The part of the library that the event comes from. -/
  origin : String
  message : String
  /-- The fields with their values as they are shown. -/
  fields : List (String × String)
  deriving DecidableEq, Repr

namespace Event

/-- A field whose value is shown as it is. -/
def plain (name value : String) : String × String := (name, value)

/-- A field whose value is shown in quotes. -/
def quoted (name value : String) : String × String := (name, Text.quoted value)

/-- A field that counts something. -/
def count (name : String) (value : Nat) : String × String := (name, toString value)

/-- A field that answers yes or no. -/
def flag (name : String) (value : Bool) : String × String := (name, if value then "true" else "false")

/-- The line of the log that an event makes. -/
def line (e : Event) : String :=
  e.fields.foldl (fun text f => text ++ " " ++ f.1 ++ "=" ++ f.2) (e.level.name ++ " " ++ e.message)

end Event

end Stencil.Log
