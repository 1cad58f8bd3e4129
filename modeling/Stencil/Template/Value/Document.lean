import Stencil.Template.Value.Text
import Stencil.Json.Printer

/-!
# Values as documents

The JSON document that a value denotes. What has no value becomes `null`, sequences become arrays and
mappings objects, whose keys have to have a text of their own.
-/

namespace Stencil.Template

def Value.keyText? : Value → Option String
  | .string s _ => some s
  | .bool b => some (if b then "true" else "false")
  | .int n => some (String.ofList (Decimal.ofInt n.value))
  | .float x => (Json.floatLayout.float? x.value).map String.ofList
  | _ => Option.none

mutual

/-- The document of a value; none if a key has no text. -/
def Value.toJson? : Value → Option Json
  | .undefined | .none => some .null
  | .bool b => some (.bool b)
  | .int n => some (.number (.int n.value))
  | .float x => some (.number (.float x.value))
  | .string s _ => some (.string s)
  | .iterator _ .failing _ => Option.none
  | .list items _ | .iterator items _ _ => (itemsToJson? items).map .array
  | .group key items _ =>
      match key.toJson?, itemsToJson? items with
      | some k, some vs => some (.array [k, .array vs])
      | _, _ => Option.none
  | .map entries _ | .overlay entries _ _ | .keywords entries => (entriesToJson? entries).map .object
  | .record _ fields _ => (fieldsToJson? fields).map .object
  | .routine r =>
      some (.object [("name", .string r.name), ("arguments", .array (r.params.map .string)),
        ("caller", .bool r.takesBody)])
  | .function f => some (.string f.text)
  | .loop _ | .space _ => some (.object [])

def itemsToJson? : List Value → Option (List Json)
  | [] => some []
  | v :: vs =>
      match v.toJson?, itemsToJson? vs with
      | some d, some ds => some (d :: ds)
      | _, _ => none

/-- The members that entries make. -/
def entriesToJson? : List (Value × Value) → Option (List (String × Json))
  | [] => some []
  | (k, v) :: es =>
      match k.keyText?, v.toJson?, entriesToJson? es with
      | some s, some d, some ms => some ((s, d) :: ms)
      | _, _, _ => none

/-- The members that fields make. -/
def fieldsToJson? : List (String × Value) → Option (List (String × Json))
  | [] => some []
  | (k, v) :: fs =>
      match v.toJson?, fieldsToJson? fs with
      | some d, some ms => some ((k, d) :: ms)
      | _, _ => none

end

end Stencil.Template
