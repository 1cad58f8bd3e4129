import Stencil.Proofs.Yaml.Written.Tree

/-!
# The value of a written JSON document

The tree of an object that is written in JSON has a value if no integer is out of range and no object gives a name
twice. All names are strings, so that the value is one of JSON, with the names that were written.

Main statements: `isSome_ofTree?_treeOf` and `exists_toJson_of_treeOf`.
-/

namespace Stencil.Yaml

open Stencil.Json (Piece Written WrittenItems WrittenMembers)

/-- Whether a piece has a value: an integer has to be in range, and names have to be distinct. -/
def isValued : Piece → Bool
  | .literal w => !isOversized w.chars
  | .names ns => decide ns.Nodup
  | _ => true

variable {es : List (Value × Value)} {names : List String}

/-! ## Names -/

theorem valuesOfEntries?_cons (k : String) (t : Tree) (ts : List (Tree × Tree)) :
    valuesOfEntries? ((.scalar none false k, t) :: ts) = (Value.ofTree? t).bind fun v =>
      (valuesOfEntries? ts).map fun es => (.string k, v) :: es := by
  have hk : Value.ofTree? (.scalar none false k) = some (.string k) := rfl
  rw [valuesOfEntries?, hk]
  cases Value.ofTree? t with
  | none => rfl
  | some v => cases valuesOfEntries? ts <;> rfl

/-- The keys of members are strings. -/
theorem keys_of_valuesOfEntries? : ∀ (members : WrittenMembers) {es : List (Value × Value)},
    valuesOfEntries? (treesOfMembers members) = some es → es.map Prod.fst = members.names.map .string
  | .last label lead v behind, es, h => by
      rw [treesOfMembers, valuesOfEntries?_cons] at h
      obtain ⟨w, -, h⟩ := Option.bind_eq_some_iff.mp h
      cases h
      rfl
  | .more label lead v behind members, es, h => by
      rw [treesOfMembers, valuesOfEntries?_cons] at h
      obtain ⟨w, -, h⟩ := Option.bind_eq_some_iff.mp h
      obtain ⟨fs, hfs, rfl⟩ := Option.map_eq_some_iff.mp h
      simp [WrittenMembers.names, keys_of_valuesOfEntries? members hfs]

/-- Keys that are strings are told apart as strings. -/
theorem distinctKeys_of_names (h : es.map Prod.fst = names.map .string) :
    distinctKeys es = decide names.Nodup := by
  induction es generalizing names with
  | nil =>
      obtain rfl : names = [] := List.map_eq_nil_iff.mp h.symm
      rfl
  | cons e es ih =>
      obtain ⟨k, v⟩ := e
      cases names with
      | nil => contradiction
      | cons n names =>
          obtain ⟨rfl, hkeys⟩ := List.cons.inj h
          have hsame : es.any (fun e => (Value.string n).same e.1) = decide (n ∈ names) := by
            have hany : es.any (fun e => (Value.string n).same e.1)
                = (es.map Prod.fst).any fun k => (Value.string n).same k := by
              rw [List.any_map]
              rfl
            rw [hany, hkeys, List.any_map, ← List.contains_eq_mem, List.contains_eq_any_beq]
            rfl
          simp [distinctKeys, hsame, ih hkeys, List.nodup_cons]

/-! ## Values -/

mutual

theorem isSome_ofTree?_treeOf : ∀ v : Written, (Value.ofTree? (treeOf v)).isSome = v.pieces.all isValued
  | .literal w => by
      simpa [treeOf, Value.ofTree?, scalar?, untagged?, Written.pieces, isValued]
        using isSome_plainScalar? (String.ofList w.chars)
  | .string q => rfl
  | .emptyArray space => rfl
  | .emptyObject space => rfl
  | .array items => by
      simp only [treeOf, Value.ofTree?, Option.isSome_map, isSome_valuesOfItems? items, Written.pieces]
  | .object members => by
      have hvalues := isSome_valuesOfEntries? members
      simp only [treeOf, Value.ofTree?, Written.pieces, List.all_cons, isValued]
      cases hes : valuesOfEntries? (treesOfMembers members) with
      | none =>
          rw [hes] at hvalues
          simp [← hvalues]
      | some es =>
          rw [hes] at hvalues
          rw [Option.bind_some, distinctKeys_of_names (keys_of_valuesOfEntries? members hes), ← hvalues]
          split <;> simp_all

theorem isSome_valuesOfItems? : ∀ items : WrittenItems,
    (valuesOfItems? (treesOfItems items)).isSome = items.pieces.all isValued
  | .last lead v behind => by
      rw [WrittenItems.pieces, ← isSome_ofTree?_treeOf v, treesOfItems, valuesOfItems?]
      cases Value.ofTree? (treeOf v) <;> rfl
  | .more lead v behind items => by
      rw [WrittenItems.pieces, List.all_append, ← isSome_ofTree?_treeOf v, ← isSome_valuesOfItems? items,
        treesOfItems, valuesOfItems?]
      cases Value.ofTree? (treeOf v) <;> cases valuesOfItems? (treesOfItems items) <;> rfl

theorem isSome_valuesOfEntries? : ∀ members : WrittenMembers,
    (valuesOfEntries? (treesOfMembers members)).isSome = members.pieces.all isValued
  | .last label lead v behind => by
      rw [WrittenMembers.pieces, treesOfMembers, valuesOfEntries?_cons]
      simp only [List.all_cons, isValued, Bool.true_and, ← isSome_ofTree?_treeOf v]
      cases Value.ofTree? (treeOf v) <;> rfl
  | .more label lead v behind members => by
      rw [WrittenMembers.pieces, treesOfMembers, valuesOfEntries?_cons]
      simp only [List.all_cons, List.all_append, isValued, Bool.true_and, ← isSome_ofTree?_treeOf v,
        ← isSome_valuesOfEntries? members]
      cases Value.ofTree? (treeOf v) <;> cases valuesOfEntries? (treesOfMembers members) <;> rfl

end

/-! ## JSON values -/

theorem exists_toJson_of_plainScalar? {text : String} {value : Value} (h : plainScalar? text = some value) :
    ∃ j, value.toJson = .ok j := by
  unfold plainScalar? at h
  split at h
  · cases h
    exact ⟨_, rfl⟩
  split at h
  · cases h
    exact ⟨_, rfl⟩
  split at h
  · cases h
    exact ⟨_, rfl⟩
  · contradiction
  · cases h
    exact ⟨_, rfl⟩

mutual

/-- **What is read of a tree is a value of JSON.** -/
theorem exists_toJson_of_treeOf : ∀ (v : Written) {value : Value}, Value.ofTree? (treeOf v) = some value →
    ∃ j, value.toJson = .ok j
  | .literal w, value, h => exists_toJson_of_plainScalar? h
  | .string q, value, h => by
      cases h
      exact ⟨_, rfl⟩
  | .emptyArray space, value, h => by
      cases h
      exact ⟨_, rfl⟩
  | .emptyObject space, value, h => by
      cases h
      exact ⟨_, rfl⟩
  | .array items, value, h => by
      obtain ⟨vs, hvs, rfl⟩ := Option.map_eq_some_iff.mp h
      obtain ⟨js, hjs⟩ := exists_jsonItems_of_treesOfItems items hvs
      exact ⟨.array js, by simp [underTag, Value.toJson, hjs, Except.map]⟩
  | .object members, value, h => by
      obtain ⟨es, hes, h⟩ := Option.bind_eq_some_iff.mp h
      obtain ⟨ms, hms, -⟩ := exists_jsonMembers_of_treesOfMembers members hes
      split at h
      · cases h
        exact ⟨.object (Members.ofEntries ms), by simp [underTag, Value.toJson, hms, Except.map]⟩
      · contradiction

theorem exists_jsonItems_of_treesOfItems : ∀ (items : WrittenItems) {vs : List Value},
    valuesOfItems? (treesOfItems items) = some vs → ∃ js, jsonItems vs = .ok js
  | .last lead v behind, vs, h => by
      obtain ⟨w, hw, h⟩ := Option.bind_eq_some_iff.mp h
      cases h
      obtain ⟨j, hj⟩ := exists_toJson_of_treeOf v hw
      exact ⟨[j], by simp [jsonItems, hj, Except.map]⟩
  | .more lead v behind items, vs, h => by
      obtain ⟨w, hw, h⟩ := Option.bind_eq_some_iff.mp h
      obtain ⟨ws, hws, h⟩ := Option.bind_eq_some_iff.mp h
      cases h
      obtain ⟨j, hj⟩ := exists_toJson_of_treeOf v hw
      obtain ⟨js, hjs⟩ := exists_jsonItems_of_treesOfItems items hws
      exact ⟨j :: js, by simp [jsonItems, hj, hjs, Except.map]⟩

theorem exists_jsonMembers_of_treesOfMembers : ∀ (members : WrittenMembers) {es : List (Value × Value)},
    valuesOfEntries? (treesOfMembers members) = some es →
    ∃ ms, jsonMembers es = .ok ms ∧ Members.keys ms = members.names
  | .last label lead v behind, es, h => by
      rw [treesOfMembers, valuesOfEntries?_cons] at h
      obtain ⟨w, hw, h⟩ := Option.bind_eq_some_iff.mp h
      cases h
      obtain ⟨j, hj⟩ := exists_toJson_of_treeOf v hw
      exact ⟨[(String.ofList label.name.says, j)], by simp [jsonMembers, keyText?, hj, Except.map], rfl⟩
  | .more label lead v behind members, es, h => by
      rw [treesOfMembers, valuesOfEntries?_cons] at h
      obtain ⟨w, hw, h⟩ := Option.bind_eq_some_iff.mp h
      obtain ⟨fs, hfs, rfl⟩ := Option.map_eq_some_iff.mp h
      obtain ⟨j, hj⟩ := exists_toJson_of_treeOf v hw
      obtain ⟨ms, hms, hnames⟩ := exists_jsonMembers_of_treesOfMembers members hfs
      exact ⟨(String.ofList label.name.says, j) :: ms, by simp [jsonMembers, keyText?, hj, hms, Except.map],
        congrArg (_ :: ·) hnames⟩

end

end Stencil.Yaml
