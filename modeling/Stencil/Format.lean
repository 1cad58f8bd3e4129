import Stencil.Rejection
import Stencil.Variables
import Stencil.Json.Reader
import Stencil.Yaml.Value.Reader
import Stencil.Text.Blank
import Stencil.Text.Case

/-!
# Formats of variables

The three ways in which a text can be read as variables. A format reads a text to a mapping with
names, or says why it does not.
-/

namespace Stencil

/-- A format of variables. -/
inductive Format where
  | json
  | yaml
  | keyValue
  deriving DecidableEq, Repr

namespace Format

/-- All formats, in the order in which they are tried when none is named. -/
def all : List Format := [.json, .yaml, .keyValue]

def name : Format → String
  | .json => "json"
  | .yaml => "yaml"
  | .keyValue => "env"

/-- The name of a format in messages. -/
def title : Format → String
  | .json => "JSON"
  | .yaml => "YAML"
  | .keyValue => "KEY=VALUE"

/-- A name that no format has. -/
structure UnknownName where
  name : String
  deriving DecidableEq, Repr

/-- The wording of the fault. -/
def UnknownName.message (u : UnknownName) : String :=
  "unknown variable format '" ++ u.name ++ "' (expected json, yaml or env)"

/-- The format of a name, which may be written in capitals. -/
def ofName (text : String) : Except UnknownName Format :=
  let name := Text.asciiLower text
  if name = "json" then .ok .json
  else if name = "yaml" ∨ name = "yml" then .ok .yaml
  else if name = "env" ∨ name = "dotenv" then .ok .keyValue
  else .error ⟨name⟩

/-! ## Reading -/

/-- The members of a JSON object. -/
def jsonMembers (text : String) : Except Rejection (Members Json) :=
  match Json.parse? text with
  | none => .error (.malformed .json)
  | some (.object members) => .ok members
  | some other => .error (.notAMapping other.kind)

/-- The members that a YAML value has as a mapping; tags around it make no difference. -/
def yamlValueMembers (value : Yaml.Value) : Except Rejection (Members Json) :=
  match value.mapping? with
  | none => .error (.notAMapping value.kind)
  | some entries =>
      match Yaml.jsonMembers entries with
      | .error fault => .error (.malformed (.key fault))
      | .ok members => .ok (Members.ofEntries members)

/-- The members of a YAML mapping. -/
def yamlMembers (text : String) : Except Rejection (Members Json) :=
  match Yaml.parse? text with
  | none => .error (.malformed .yaml)
  | some value => yamlValueMembers value

/-- The members that the assignments of a text make. -/
def keyValueMembers (text : String) : Except Rejection (Members Json) :=
  match KeyValue.entries text.toList with
  | .error fault => .error (.malformed (.line fault))
  | .ok entries => .ok (Members.ofEntries (entries.map fun e => (e.1, Json.string e.2)))

/-- The members that a text has in a format. -/
def members (format : Format) (text : String) : Except Rejection (Members Json) :=
  match format with
  | .json => jsonMembers text
  | .yaml => yamlMembers text
  | .keyValue => keyValueMembers text

/-- Reads a text as variables. -/
def read (format : Format) (text : String) : Except Rejection Variables :=
  if Text.isBlankText text then .error .empty
  else
    match format.members text with
    | .error rejection => .error rejection
    | .ok members =>
        match Variables.ofMembers? members with
        | none => .error .noKeys
        | some vars => .ok vars

/-- The keys with an equals sign that reading a text as YAML meets; they hint at another format. -/
def assignmentKeys (format : Format) (text : String) : List String :=
  match format with
  | .yaml =>
      if Text.isBlankText text then []
      else
        match (Yaml.parse? text).bind Yaml.Value.mapping? with
        | none => []
        | some entries => (Yaml.assignmentKeysOfEntries entries).1
  | _ => []

end Format

end Stencil
