import Stencil.Environment
import Stencil.Log.Event
import Stencil.Text.Blank
import Stencil.Text.Lines

/-!
# Log filters

Which events of a run are shown. A filter is a list of rules; a rule sets a threshold for the events of
some part of the library, and for each event the rule that speaks of the smallest part decides.

In writing, rules have commas between them. A rule is a level, a part, or a part and a level with an equals
sign between them; in brackets after the part it can name a span and a field.
-/

namespace Stencil.Log

/-- A rule of a filter. -/
structure Rule where
  /-- What the origins of the events start with that the rule speaks of. -/
  origin : Option String
  /-- The field that an event must have. -/
  field : Option String
  /-- Whether the rule speaks of events inside a span, and so of none. -/
  spansOnly : Bool
  /-- The least grave level that is shown. -/
  threshold : Option Level
  deriving DecidableEq, Repr

/-! ## Reading -/

/-- The number that decimal digits make. -/
def numberOfDigits? (cs : List Char) : Option Nat :=
  if cs = [] ∨ cs.any (!·.isDigit) then none
  else some (cs.foldl (fun n c => 10 * n + (c.toNat - '0'.toNat)) 0)

/-- The number that digits make, with or without a plus sign. -/
def number? : List Char → Option Nat
  | '+' :: cs => numberOfDigits? cs
  | cs => numberOfDigits? cs

/-- The threshold that a word names: a level, a number from zero to five, or `off`. -/
def threshold? (cs : List Char) : Option (Option Level) :=
  match number? cs with
  | some n => Level.ofRank? n
  | none =>
      match Text.asciiLower (String.ofList cs) with
      | "error" => some (some .error)
      | "warn" => some (some .warn)
      | "info" => some (some .info)
      | "debug" => some (some .debug)
      | "trace" => some (some .trace)
      | "off" => some none
      | _ => none

/-- The threshold after an equals sign; nothing stands for all levels. -/
def thresholdAfter? (cs : List Char) : Option (Option Level) :=
  if cs = [] then some (some .trace) else threshold? cs

namespace Rule

/-- A rule for a part of the library. -/
def forOrigin (origin : List Char) (threshold : Option Level) : Rule :=
  ⟨some (String.ofList origin), none, false, threshold⟩

/-- The rule of a text without brackets and equals signs: a level for all events, or a part all of whose
events are shown. -/
def ofWord (cs : List Char) : Rule :=
  match threshold? cs with
  | some threshold => ⟨none, none, false, threshold⟩
  | none => forOrigin cs (some .trace)

/-- Completes a rule by what follows its brackets: an equals sign and a level, or nothing. -/
def close? (r : Rule) : List Char → Option Rule
  | '=' :: cs => (thresholdAfter? cs).map fun threshold => { r with threshold := threshold }
  | cs => if cs.all Text.isBlank then some r else none

/-- Completes a rule by the field in braces and what follows. A field can be compared to a value, which
only spans have. -/
def ofField? (r : Rule) (cs : List Char) : Option Rule :=
  let field := cs.takeWhile (· ≠ '\x7d')
  match cs.dropWhile (· ≠ '\x7d') with
  | _ :: ']' :: rest =>
      if field = [] then none
      else
        { r with
          field := some (String.ofList (field.takeWhile (· ≠ '=')))
          spansOnly := r.spansOnly || field.contains '=' }.close? rest
  | _ => none

/-- Completes a rule by what follows an opening bracket: the name of a span and a field in braces. -/
def ofBracket? (origin : Option String) (cs : List Char) : Option Rule :=
  let ends (c : Char) : Bool := c == ']' || c == '\x7b'
  let span := cs.takeWhile (!ends ·)
  match cs.dropWhile (!ends ·) with
  | ']' :: rest => close? ⟨origin, none, true, some .trace⟩ rest
  | _ :: rest => ofField? ⟨origin, none, span ≠ [], some .trace⟩ rest
  | [] => none

/-- Whether a rule can start with a character. -/
def canStart (c : Char) : Bool :=
  c == '-' || c == ':' || c == '_' || c.isAlphanum || 0x80 ≤ c.toNat

/-- The rule that a text spells which starts with no blank. -/
def ofBare? (cs : List Char) : Option Rule :=
  match cs with
  | [] => none
  | '[' :: rest => ofBracket? none rest
  | first :: rest =>
      if !canStart first then none
      else
        let ends (c : Char) : Bool := c == '=' || c == '['
        let origin := first :: rest.takeWhile (!ends ·)
        match rest.dropWhile (!ends ·) with
        | [] => some (ofWord origin)
        | '=' :: level => (thresholdAfter? level).map (forOrigin origin)
        | _ :: rest => ofBracket? (some (String.ofList origin)) rest

/-- The rule that a text spells. Blanks in front belong to the name of a part, which is then the name of
none, and no level can follow them. -/
def ofChars? (cs : List Char) : Option Rule :=
  let bare := Text.trimStart cs
  if bare.length = cs.length then ofBare? cs
  else if '=' ∈ bare.reverse.takeWhile (· ≠ ']') then none
  else (ofBare? bare).map fun r => { r with origin := some (String.ofList cs) }

end Rule

abbrev Filter := List Rule

namespace Filter

def ofText? (text : String) : Option Filter :=
  ((Text.split ',' text.toList).filter (· ≠ [])).mapM Rule.ofChars?

/-! ## Deciding -/

def speaksOf (r : Rule) (e : Event) : Bool :=
  !r.spansOnly
    && (match r.origin with
        | none => true
        | some origin => origin.toList.isPrefixOf e.origin.toList)
    && (match r.field with
        | none => true
        | some field => field == "message" || e.fields.any (·.1 == field))

/-- How small the part is that a rule speaks of. -/
def precision (r : Rule) : Nat × Nat :=
  (match r.origin with
    | none => 0
    | some origin => origin.utf8ByteSize + 1,
   if r.field.isSome then 1 else 0)

/-- Of two rules the one that decides: the more precise one, then the one whose field has the greater name,
or else the later one. -/
def decisive (earlier : Option Rule) (later : Rule) : Option Rule :=
  match earlier with
  | none => some later
  | some r =>
      let (a, b) := precision r
      let (c, d) := precision later
      if a < c ∨ a = c ∧ (b < d ∨ b = d ∧ r.field.getD "" ≤ later.field.getD "") then some later
      else some r

def shows (f : Filter) (e : Event) : Bool :=
  match (f.filter (speaksOf · e)).foldl decisive none with
  | none => false
  | some r =>
      match r.threshold with
      | none => false
      | some level => e.level.rank ≤ level.rank

end Filter

/-! ## Choosing a filter -/

/-- The parts of the library that events come from. -/
def parts : List String := ["stamp", "stamp_vars", "stamp_render"]

/-- How much of its own log a run is asked to show. -/
structure Verbosity where
  verbose : Nat
  quiet : Bool
  deriving DecidableEq, Repr

/-- The filter of a verbosity in writing. A runner that debugs asks for one step more than the least. -/
def Verbosity.directive (v : Verbosity) (debug : Bool) : String :=
  if v.quiet then "error"
  else
    let (base, own) :=
      match max v.verbose (if debug then 1 else 0) with
      | 0 => ("warn", "info")
      | 1 => ("warn", "debug")
      | _ => ("info", "trace")
    String.intercalate "," (base :: parts.map fun part => part ++ "=" ++ own)

/-- The filter of a run. A filter that the environment spells out goes before the verbosity. -/
def Filter.choose? (v : Verbosity) (runner : Runner) (env : Environment) : Option Filter :=
  match env.filled? "RUST_LOG" with
  | some text => ofText? text
  | none => ofText? (v.directive runner.debug)

end Stencil.Log
