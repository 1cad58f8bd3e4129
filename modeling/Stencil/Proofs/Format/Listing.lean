import Stencil.Proofs.Json.Listing
import Stencil.Proofs.Yaml.Listing

/-!
# Names in the order of a text

An object among variables has its names in the order of the text that the variables are read from, whichever format
the text is in. Where all values are texts there is no object to speak of.

Main statement: `exists_lists_of_resolve`.
-/

namespace Stencil

/-- Whether a text in a format lists names, in this order, in the mapping that a place leads to. -/
def Format.Lists : Format → String → List String → List String → Prop
  | .json => Json.Lists
  | .yaml => Yaml.Lists
  | .keyValue => fun _ _ _ => False

variable {text : String} {vars : Variables} {ms : Members Json} {place : List String}

/-- Assignments make no objects. -/
theorem ne_object_of_read_keyValue (h : Format.read .keyValue text = .ok vars) (name : String)
    (names : List String) : vars.walk? name names ≠ some (.object ms) := by
  have hmembers : Format.keyValueMembers text = .ok vars.members := Format.members_of_read h
  unfold Format.keyValueMembers at hmembers
  split at hmembers
  · contradiction
  · rename_i entries _
    intro hwalk
    obtain ⟨w, hw, hwalk⟩ := Option.bind_eq_some_iff.mp hwalk
    rw [Variables.get?, ← Except.ok.inj hmembers, Members.get?_ofEntries_eq_find?] at hw
    obtain ⟨e, he, rfl⟩ := Option.map_eq_some_iff.mp hw
    obtain ⟨f, -, rfl⟩ := List.mem_map.mp (List.mem_reverse.mp (List.mem_of_find?_eq_some he))
    cases names <;> cases hwalk

theorem exists_lists_of_read {f : Format} (h : f.read text = .ok vars) {name : String} {names : List String}
    (hms : vars.walk? name names = some (.object ms)) :
    ∃ listed, f.Lists text (name :: names) listed ∧ Members.keys ms = listed.eraseDups := by
  rw [Variables.walk?_eq_walk?_toJson] at hms
  cases f with
  | json => exact Json.exists_lists_of_parse? (parse?_of_read_json h) vars.nonempty hms
  | yaml => exact Yaml.exists_lists_of_read_yaml h hms
  | keyValue => exact absurd hms (ne_object_of_read_keyValue h name names)

/-- **The names of an object among resolved variables are listed in the text**, and each stands where it first
came. -/
theorem exists_lists_of_resolve {c : Chain} {found : Chain.Resolved} (h : c.resolve text = .ok found)
    {name : String} {names : List String} (hms : found.vars.walk? name names = some (.object ms)) :
    ∃ listed, found.format.Lists text (name :: names) listed ∧ Members.keys ms = listed.eraseDups := by
  obtain ⟨_, _, -, -, hread⟩ := Chain.resolve_eq_ok_iff.mp h
  exact exists_lists_of_read hread hms

end Stencil
