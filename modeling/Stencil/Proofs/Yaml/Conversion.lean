import Mathlib.Data.List.Forall2
import Stencil.Format

/-!
# What YAML values become in JSON

A value becomes a value of JSON when its root is a mapping and no key on the way through values and items is a
collection. It keeps its shape: items stay in order, and entries are inserted in order under the text of their keys.
Otherwise the fault is that of the first key that is a collection. What counts is the value without its tags.

The conversion of a value and its outcome are told apart here: `Becomes` says what a value without tags becomes, and
`ToldBy` says that an outcome is a fault of the first key among some in order that is a collection.

Main statement: `yamlValueMembers_iff_isScalar`.
-/

namespace Stencil.Yaml

theorem map_eq_ok_iff {ε α β : Type} {x : Except ε α} {f : α → β} {b : β} :
    x.map f = .ok b ↔ ∃ a, x = .ok a ∧ f a = b := by
  cases x <;> simp [Except.map]

/-! ## Values without tags -/

mutual

/-- A value without its tags, at every depth. -/
def Value.bare : Value → Value
  | .null => .null
  | .bool b => .bool b
  | .number n => .number n
  | .string s => .string s
  | .sequence items => .sequence (bareItems items)
  | .mapping entries => .mapping (bareEntries entries)
  | .tagged _ v => v.bare

/-- Items without tags. -/
def bareItems : List Value → List Value
  | [] => []
  | v :: vs => v.bare :: bareItems vs

/-- Entries without tags, in keys and in values. -/
def bareEntries : List (Value × Value) → List (Value × Value)
  | [] => []
  | (k, v) :: es => (k.bare, v.bare) :: bareEntries es

end

def Value.isScalar (v : Value) : Bool := v.kind != .sequence && v.kind != .mapping

variable {v w k : Value} {vs : List Value} {es : List (Value × Value)}

theorem kind_bare : ∀ v : Value, v.bare.kind = v.kind
  | .null | .bool _ | .number _ | .string _ | .sequence _ | .mapping _ => rfl
  | .tagged _ v => kind_bare v

theorem isScalar_bare (v : Value) : v.bare.isScalar = v.isScalar := by
  rw [Value.isScalar, kind_bare, Value.isScalar]

theorem mapping?_of_isScalar : ∀ {v : Value}, v.isScalar = true → v.mapping? = none
  | .null, _ | .bool _, _ | .number _, _ | .string _, _ => rfl
  | .sequence _, h | .mapping _, h => by contradiction
  | .tagged _ v, h => mapping?_of_isScalar (v := v) h

theorem mapping?_bare : ∀ v : Value, v.bare.mapping? = v.mapping?.map bareEntries
  | .null | .bool _ | .number _ | .string _ | .sequence _ | .mapping _ => rfl
  | .tagged _ v => mapping?_bare v

theorem bare_eq_mapping_iff : ∀ {v : Value} {es : List (Value × Value)},
    v.bare = .mapping es ↔ ∃ fs, v.mapping? = some fs ∧ bareEntries fs = es
  | .null, _ | .bool _, _ | .number _, _ | .string _, _ | .sequence _, _ => by
      simp [Value.bare, Value.mapping?]
  | .mapping fs, es => by simp [Value.bare, Value.mapping?]
  | .tagged _ v, es => bare_eq_mapping_iff (v := v)

/-! ## Keys -/

/-- The text that a key without tags has. -/
inductive KeySays : Value → String → Prop
  | string (s : String) : KeySays (.string s) s
  | number (n : Number) : KeySays (.number n) (numberKey n)
  | yes : KeySays (.bool true) "true"
  | no : KeySays (.bool false) "false"
  | null : KeySays .null "null"

theorem keyText?_eq_some_iff : ∀ {k : Value} {name : String},
    keyText? k = some name ↔ KeySays k.bare name
  | .null, name => by
      constructor
      · rintro ⟨⟩
        exact .null
      · rintro ⟨⟩
        rfl
  | .bool b, name => by
      constructor
      · rintro ⟨⟩
        cases b
        · exact .no
        · exact .yes
      · rintro ⟨⟩ <;> rfl
  | .number n, name => by
      constructor
      · rintro ⟨⟩
        exact .number n
      · rintro ⟨⟩
        rfl
  | .string s, name => by
      constructor
      · rintro ⟨⟩
        exact .string s
      · rintro ⟨⟩
        rfl
  | .sequence items, name | .mapping entries, name => by
      constructor <;> rintro ⟨⟩
  | .tagged _ k, name => keyText?_eq_some_iff (k := k)

theorem keyText?_eq_none_iff : ∀ {k : Value}, keyText? k = none ↔ k.isScalar = false
  | .null | .bool _ | .number _ | .string _ => by simp [keyText?, Value.isScalar, Value.kind]
  | .sequence _ | .mapping _ => by simp [keyText?, Value.isScalar, Value.kind]
  | .tagged _ k => keyText?_eq_none_iff (k := k)

/-! ## Values that are converted -/

/-- What a value without tags becomes in JSON: a scalar itself, or null if it is a number that is not finite; a
sequence the array of what its items become; and a mapping the object into which the values of its entries are
inserted in order, under the texts of their keys. -/
inductive Becomes : Value → Json → Prop
  | null : Becomes .null .null
  | bool (b : Bool) : Becomes (.bool b) (.bool b)
  | integer (n : Int) : Becomes (.number (.int n)) (.number (.int n))
  | finite {x : Float} (h : x.isFinite = true) : Becomes (.number (.float x)) (.number (.float x))
  | notFinite {x : Float} (h : x.isFinite = false) : Becomes (.number (.float x)) .null
  | string (s : String) : Becomes (.string s) (.string s)
  | sequence {vs : List Value} {js : List Json} (h : List.Forall₂ Becomes vs js) :
      Becomes (.sequence vs) (.array js)
  | mapping {es : List (Value × Value)} {ms : List (String × Json)}
      (hkeys : List.Forall₂ KeySays (es.map Prod.fst) (ms.map Prod.fst))
      (hvalues : List.Forall₂ Becomes (es.map Prod.snd) (ms.map Prod.snd)) :
      Becomes (.mapping es) (.object (Members.ofEntries ms))

theorem becomes_jsonNumber (n : Number) : Becomes (.number n) (jsonNumber n) := by
  cases n with
  | int n => exact .integer n
  | float x =>
      rw [jsonNumber]
      split
      · rename_i h
        exact .finite h
      · rename_i h
        exact .notFinite (Bool.not_eq_true _ ▸ h)

theorem eq_jsonNumber_of_becomes {n : Number} {j : Json} (h : Becomes (.number n) j) : j = jsonNumber n := by
  cases h <;> simp_all [jsonNumber]

theorem jsonItems_eq_ok_iff {js : List Json} :
    jsonItems vs = .ok js ↔ List.Forall₂ (fun v j => v.toJson = .ok j) vs js := by
  induction vs generalizing js with
  | nil => simp [jsonItems, eq_comm]
  | cons v vs ih =>
      rw [jsonItems]
      cases hv : v.toJson with
      | error f => simp [List.forall₂_cons_left_iff, hv]
      | ok j => simp [List.forall₂_cons_left_iff, map_eq_ok_iff, ih, hv, eq_comm (a := js)]

theorem jsonMembers_eq_ok_iff {ms : List (String × Json)} :
    jsonMembers es = .ok ms
      ↔ List.Forall₂ (fun e m => keyText? e.1 = some m.1 ∧ e.2.toJson = .ok m.2) es ms := by
  induction es generalizing ms with
  | nil => simp [jsonMembers, eq_comm]
  | cons e es ih =>
      obtain ⟨k, v⟩ := e
      rw [jsonMembers]
      cases hk : keyText? k with
      | none => simp [List.forall₂_cons_left_iff, hk]
      | some name =>
          cases hv : v.toJson with
          | error f => simp [List.forall₂_cons_left_iff, hv]
          | ok j => simp [List.forall₂_cons_left_iff, map_eq_ok_iff, ih, hk, hv, eq_comm (a := ms)]

mutual

/-- **What a value is converted to** is what it becomes without its tags. -/
theorem toJson_eq_ok_iff : ∀ (v : Value) {j : Json}, v.toJson = .ok j ↔ Becomes v.bare j
  | .null, j => by
      constructor
      · rintro ⟨⟩
        exact .null
      · rintro ⟨⟩
        rfl
  | .bool b, j => by
      constructor
      · rintro ⟨⟩
        exact .bool b
      · rintro ⟨⟩
        rfl
  | .number n, j => by
      constructor
      · rintro ⟨⟩
        exact becomes_jsonNumber n
      · intro h
        rw [eq_jsonNumber_of_becomes h]
        rfl
  | .string s, j => by
      constructor
      · rintro ⟨⟩
        exact .string s
      · rintro ⟨⟩
        rfl
  | .sequence items, j => by
      rw [Value.toJson, map_eq_ok_iff]
      constructor
      · rintro ⟨js, hjs, rfl⟩
        exact .sequence ((jsonItems_eq_ok_iff_becomes items).mp hjs)
      · rintro ⟨⟩
        rename_i js h
        exact ⟨js, (jsonItems_eq_ok_iff_becomes items).mpr h, rfl⟩
  | .mapping entries, j => by
      rw [Value.toJson, map_eq_ok_iff]
      constructor
      · rintro ⟨ms, hms, rfl⟩
        obtain ⟨hkeys, hvalues⟩ := (jsonMembers_eq_ok_iff_becomes entries).mp hms
        exact .mapping hkeys hvalues
      · rintro ⟨⟩
        rename_i ms hkeys hvalues
        exact ⟨ms, (jsonMembers_eq_ok_iff_becomes entries).mpr ⟨hkeys, hvalues⟩, rfl⟩
  | .tagged _ v, j => toJson_eq_ok_iff v

theorem jsonItems_eq_ok_iff_becomes : ∀ (vs : List Value) {js : List Json},
    jsonItems vs = .ok js ↔ List.Forall₂ Becomes (bareItems vs) js
  | [], js => by simp [jsonItems, bareItems, eq_comm]
  | v :: vs, js => by
      simp only [jsonItems_eq_ok_iff, bareItems, List.forall₂_cons_left_iff, toJson_eq_ok_iff v,
        ← jsonItems_eq_ok_iff_becomes vs]

theorem jsonMembers_eq_ok_iff_becomes : ∀ (es : List (Value × Value)) {ms : List (String × Json)},
    jsonMembers es = .ok ms
      ↔ List.Forall₂ KeySays ((bareEntries es).map Prod.fst) (ms.map Prod.fst)
        ∧ List.Forall₂ Becomes ((bareEntries es).map Prod.snd) (ms.map Prod.snd)
  | [], ms => by cases ms <;> simp [jsonMembers, bareEntries]
  | (k, v) :: es, ms => by
      rw [jsonMembers_eq_ok_iff]
      cases ms with
      | nil => simp [bareEntries]
      | cons m ms =>
          rw [List.forall₂_cons, ← jsonMembers_eq_ok_iff, jsonMembers_eq_ok_iff_becomes es, toJson_eq_ok_iff v,
            keyText?_eq_some_iff]
          simp only [bareEntries, List.map_cons, List.forall₂_cons]
          exact and_and_and_comm

end

/-! ## Tags -/

theorem keyText?_bare : ∀ k : Value, keyText? k.bare = keyText? k
  | .null | .bool _ | .number _ | .string _ | .sequence _ | .mapping _ => rfl
  | .tagged _ k => keyText?_bare k

mutual

/-- Tags make no difference to what a value is converted to, nor to its fault. -/
theorem toJson_bare : ∀ v : Value, v.bare.toJson = v.toJson
  | .null | .bool _ | .number _ | .string _ => rfl
  | .sequence items => by rw [Value.bare, Value.toJson, jsonItems_bareItems items, Value.toJson]
  | .mapping entries => by rw [Value.bare, Value.toJson, jsonMembers_bareEntries entries, Value.toJson]
  | .tagged _ v => toJson_bare v

theorem jsonItems_bareItems : ∀ vs : List Value, jsonItems (bareItems vs) = jsonItems vs
  | [] => rfl
  | v :: vs => by rw [bareItems, jsonItems, toJson_bare v, jsonItems_bareItems vs, jsonItems]

theorem jsonMembers_bareEntries : ∀ es : List (Value × Value), jsonMembers (bareEntries es) = jsonMembers es
  | [] => rfl
  | (k, v) :: es => by
      rw [bareEntries, jsonMembers, keyText?_bare, toJson_bare v, jsonMembers_bareEntries es, jsonMembers]

end

theorem yamlValueMembers_bare (v : Value) : Format.yamlValueMembers v.bare = Format.yamlValueMembers v := by
  rw [Format.yamlValueMembers, mapping?_bare, kind_bare, Format.yamlValueMembers]
  cases v.mapping? with
  | none => rfl
  | some es => simp only [Option.map_some, jsonMembers_bareEntries]

/-! ## Keys in order -/

/-- A key of a mapping, with the keys of the mappings around its own, from the outside in. -/
structure KeyPlace where
  path : List Value
  key : Value

/-- A key seen from one mapping further out. -/
def KeyPlace.under (key : Value) (p : KeyPlace) : KeyPlace := ⟨key :: p.path, p.key⟩

mutual

/-- The keys of all mappings that values and items lead to, in the order of the document: a key comes before those
inside of its value. -/
def Value.keyPlaces : Value → List KeyPlace
  | .sequence items => keyPlacesOfItems items
  | .mapping entries => keyPlacesOfEntries entries
  | .tagged _ v => v.keyPlaces
  | _ => []

def keyPlacesOfItems : List Value → List KeyPlace
  | [] => []
  | v :: vs => v.keyPlaces ++ keyPlacesOfItems vs

/-- The keys of entries and inside of their values. -/
def keyPlacesOfEntries : List (Value × Value) → List KeyPlace
  | [] => []
  | (k, v) :: es => ⟨[], k⟩ :: (v.keyPlaces.map (·.under k) ++ keyPlacesOfEntries es)

end

def KeyPlace.isCollection (p : KeyPlace) : Bool := !p.key.isScalar

/-- Whether some keys in order tell an outcome: it is the fault of the first of them that is a collection, told with
the texts of the keys around it, and otherwise it is none. -/
def ToldBy {α : Type} (places : List KeyPlace) : Except KeyFault α → Prop
  | .ok _ => places.find? KeyPlace.isCollection = none
  | .error f => ∃ p, places.find? KeyPlace.isCollection = some p ∧ List.Forall₂ KeySays p.path f.path

section ToldBy

variable {α β : Type} {places more : List KeyPlace} {x : Except KeyFault α} {y : Except KeyFault β} {f : KeyFault}

theorem ToldBy.map (h : ToldBy places x) (g : α → β) : ToldBy places (x.map g) := by
  cases x <;> exact h

/-- The keys before a fault are followed by any others. -/
theorem ToldBy.append_of_error (h : ToldBy places (.error f : Except KeyFault α)) (more : List KeyPlace) :
    ToldBy (places ++ more) (.error f : Except KeyFault β) := by
  obtain ⟨p, hp, hpath⟩ := h
  exact ⟨p, by rw [List.find?_append, hp, Option.some_or], hpath⟩

/-- Keys without a fault come before those that tell the outcome. -/
theorem ToldBy.append_of_find?_eq_none (hp : places.find? KeyPlace.isCollection = none) (h : ToldBy more y) :
    ToldBy (places ++ more) y := by
  have hfind : (places ++ more).find? KeyPlace.isCollection = more.find? KeyPlace.isCollection := by
    rw [List.find?_append, hp, Option.none_or]
  cases y <;> simpa only [ToldBy, hfind] using h

theorem find?_under (k : Value) (places : List KeyPlace) :
    (places.map (·.under k)).find? KeyPlace.isCollection = (places.find? KeyPlace.isCollection).map (·.under k) := by
  rw [List.find?_map]
  rfl

theorem ToldBy.under {k : Value} {name : String} (hk : KeySays k name)
    (h : ToldBy places (.error f : Except KeyFault α)) :
    ToldBy (places.map (·.under k)) (.error (f.under name) : Except KeyFault β) := by
  obtain ⟨p, hp, hpath⟩ := h
  exact ⟨p.under k, by rw [find?_under, hp, Option.map_some], .cons hk hpath⟩

end ToldBy

mutual

/-- **The outcome of a conversion** is told by the keys of the value without its tags. -/
theorem toldBy_toJson : ∀ v : Value, ToldBy v.bare.keyPlaces v.toJson
  | .null | .bool _ | .number _ | .string _ => rfl
  | .sequence items => (toldBy_jsonItems items).map Json.array
  | .mapping entries => (toldBy_jsonMembers entries).map fun ms => Json.object (Members.ofEntries ms)
  | .tagged _ v => toldBy_toJson v

theorem toldBy_jsonItems : ∀ vs : List Value, ToldBy (keyPlacesOfItems (bareItems vs)) (jsonItems vs)
  | [] => rfl
  | v :: vs => by
      have hv := toldBy_toJson v
      rw [jsonItems, bareItems, keyPlacesOfItems]
      cases hj : v.toJson with
      | error f =>
          rw [hj] at hv
          exact hv.append_of_error _
      | ok j =>
          rw [hj] at hv
          exact .append_of_find?_eq_none hv ((toldBy_jsonItems vs).map _)

theorem toldBy_jsonMembers : ∀ es : List (Value × Value),
    ToldBy (keyPlacesOfEntries (bareEntries es)) (jsonMembers es)
  | [] => rfl
  | (k, v) :: es => by
      have hv := toldBy_toJson v
      rw [jsonMembers, bareEntries, keyPlacesOfEntries]
      cases hk : keyText? k with
      | none =>
          -- The key itself is the first that is a collection, whatever stands in its value.
          have hbad : KeyPlace.isCollection ⟨[], k.bare⟩ = true := by
            simp [KeyPlace.isCollection, isScalar_bare, keyText?_eq_none_iff.mp hk]
          exact ⟨⟨[], k.bare⟩, by rw [List.find?_cons_of_pos hbad], .nil⟩
      | some name =>
          have hgood : [KeyPlace.mk [] k.bare].find? KeyPlace.isCollection = none := by
            have hscalar : k.isScalar = true := by
              by_contra hn
              rw [keyText?_eq_none_iff.mpr (Bool.not_eq_true _ ▸ hn)] at hk
              contradiction
            simp [KeyPlace.isCollection, isScalar_bare, hscalar]
          rw [← List.singleton_append]
          refine .append_of_find?_eq_none hgood ?_
          cases hj : v.toJson with
          | error f =>
              rw [hj] at hv
              exact (hv.under (keyText?_eq_some_iff.mp hk)).append_of_error (α := Json) _
          | ok j =>
              rw [hj] at hv
              have hnone : (v.bare.keyPlaces.map (·.under k.bare)).find? KeyPlace.isCollection = none := by
                rw [find?_under, hv, Option.map_none]
              exact .append_of_find?_eq_none hnone ((toldBy_jsonMembers es).map _)

end

/-! ## Members -/

theorem yamlValueMembers_of_mapping? (h : v.mapping? = some es) :
    Format.yamlValueMembers v
      = ((jsonMembers es).map Members.ofEntries).mapError fun f => .malformed (.key f) := by
  simp only [Format.yamlValueMembers, h]
  cases jsonMembers es <;> rfl

theorem toJson_of_mapping? : ∀ {v : Value}, v.mapping? = some es →
    v.toJson = (jsonMembers es).map fun ms => .object (Members.ofEntries ms)
  | .mapping _, h => by
      cases h
      rfl
  | .tagged _ v, h => toJson_of_mapping? (v := v) h

theorem exists_mapping?_of_becomes {ms : Members Json} (h : Becomes v.bare (.object ms)) :
    ∃ es, v.mapping? = some es := by
  generalize hb : v.bare = w at h
  cases h with
  | mapping _ _ =>
      obtain ⟨fs, hfs, -⟩ := bare_eq_mapping_iff.mp hb
      exact ⟨fs, hfs⟩

/-- **The members of a value** are those of the object that it becomes. -/
theorem yamlValueMembers_eq_ok_iff {ms : Members Json} :
    Format.yamlValueMembers v = .ok ms ↔ Becomes v.bare (.object ms) := by
  cases hm : v.mapping? with
  | none =>
      refine iff_of_false ?_ fun h => ?_
      · simp [Format.yamlValueMembers, hm]
      · obtain ⟨es, hes⟩ := exists_mapping?_of_becomes h
        rw [hm] at hes
        contradiction
  | some es =>
      rw [← toJson_eq_ok_iff, toJson_of_mapping? hm, yamlValueMembers_of_mapping? hm]
      cases jsonMembers es <;> simp [Except.map, Except.mapError]

/-- The wording of a fault names the keys around the bad one, from the outside in. -/
theorem message_eq_join (names : List String) :
    KeyFault.message ⟨names⟩
      = String.join (names.map fun name => "value of '" ++ name ++ "': ") ++ "mapping keys must be scalars" := by
  rw [KeyFault.message]
  induction names with
  | nil => rfl
  | cons name names ih =>
      rw [List.foldr_cons, ih, List.map_cons, String.join_cons]
      simp only [String.append_assoc]

/-- What the keys of a mapping tell of its members. -/
theorem toldBy_yamlValueMembers (h : v.bare = .mapping es) :
    (∃ ms, Format.yamlValueMembers v = .ok ms) ∧ v.bare.keyPlaces.find? KeyPlace.isCollection = none
      ∨ ∃ p names, v.bare.keyPlaces.find? KeyPlace.isCollection = some p ∧ List.Forall₂ KeySays p.path names
        ∧ Format.yamlValueMembers v = .error (.malformed (.key ⟨names⟩)) := by
  obtain ⟨fs, hfs, rfl⟩ := bare_eq_mapping_iff.mp h
  have htold := toldBy_jsonMembers fs
  rw [yamlValueMembers_of_mapping? hfs, h]
  cases hm : jsonMembers fs with
  | ok ms =>
      rw [hm] at htold
      exact .inl ⟨⟨_, rfl⟩, htold⟩
  | error f =>
      rw [hm] at htold
      obtain ⟨p, hp, hpath⟩ := htold
      exact .inr ⟨p, f.path, hp, hpath, rfl⟩

theorem find?_isCollection_eq_none_iff {places : List KeyPlace} :
    places.find? KeyPlace.isCollection = none ↔ ∀ p ∈ places, p.key.isScalar = true := by
  simp [List.find?_eq_none, KeyPlace.isCollection]

/-- **A value becomes members exactly when it is a mapping and all keys in it are scalars**, those of all mappings
that values and items lead to. The members are those of the object that the value becomes, and tags make no
difference to them. If a key is a collection, the value is rejected for the first such key in the order of the
document, and the rejection names the keys of the mappings around it. -/
theorem yamlValueMembers_iff_isScalar (v : Value) :
    ((∃ ms, Format.yamlValueMembers v = .ok ms)
        ↔ (∃ es, v.bare = .mapping es) ∧ ∀ p ∈ v.bare.keyPlaces, p.key.isScalar = true)
      ∧ (∀ ms, Format.yamlValueMembers v = .ok ms ↔ Becomes v.bare (.object ms))
      ∧ (∀ w : Value, w.bare = v.bare → Format.yamlValueMembers w = Format.yamlValueMembers v)
      ∧ ∀ es, v.bare = .mapping es → (∃ p ∈ v.bare.keyPlaces, p.key.isScalar = false) →
          ∃ p names, v.bare.keyPlaces.find? KeyPlace.isCollection = some p ∧ List.Forall₂ KeySays p.path names
            ∧ Format.yamlValueMembers v = .error (.malformed (.key ⟨names⟩))
            ∧ (Rejection.malformed (.key ⟨names⟩)).message
              = String.join (names.map fun name => "value of '" ++ name ++ "': ")
                ++ "mapping keys must be scalars" := by
  -- What is read is told by the first key that is a collection, or by there being none; each excludes the
  -- other.
  refine ⟨⟨?_, ?_⟩, fun ms => yamlValueMembers_eq_ok_iff, fun w hw => ?_, ?_⟩
  · rintro ⟨ms, hms⟩
    obtain ⟨fs, hfs⟩ := exists_mapping?_of_becomes (yamlValueMembers_eq_ok_iff.mp hms)
    have hbare : v.bare = .mapping (bareEntries fs) := bare_eq_mapping_iff.mpr ⟨fs, hfs, rfl⟩
    rcases toldBy_yamlValueMembers hbare with ⟨-, hnone⟩ | ⟨p, names, -, -, herror⟩
    · exact ⟨⟨_, hbare⟩, find?_isCollection_eq_none_iff.mp hnone⟩
    · rw [hms] at herror
      contradiction
  · rintro ⟨⟨es, hes⟩, hscalar⟩
    rcases toldBy_yamlValueMembers hes with ⟨hok, -⟩ | ⟨p, names, hp, -⟩
    · exact hok
    · rw [find?_isCollection_eq_none_iff.mpr hscalar] at hp
      contradiction
  · rw [← yamlValueMembers_bare w, hw, yamlValueMembers_bare]
  · rintro es hes ⟨q, hq, hcollection⟩
    rcases toldBy_yamlValueMembers hes with ⟨-, hnone⟩ | ⟨p, names, hp, hpath, herror⟩
    · rw [find?_isCollection_eq_none_iff.mp hnone q hq] at hcollection
      contradiction
    · exact ⟨p, names, hp, hpath, herror, message_eq_join names⟩

/-- A mapping under tags. Its last key is a collection, and so is one in an item of the value before it. -/
def tangled : Value :=
  .tagged "t" (.mapping [
    (.string "a", .mapping [(.bool true, .string "x"), (.null, .tagged "u" .null)]),
    (.tagged "u" (.number (.int (-2))), .sequence [.null, .tagged "w" (.mapping [(.sequence [], .null)])]),
    (.mapping [], .bool false)])

/-- The part of it without keys that are collections. -/
def smooth : Value := .mapping [(.string "a", .mapping [(.bool true, .string "x"), (.null, .null)])]

theorem yamlValueMembers_iff_isScalar_tangled :
    (∃ es, tangled.bare = .mapping es) ∧ (∃ p ∈ tangled.bare.keyPlaces, p.key.isScalar = false)
      ∧ Format.yamlValueMembers tangled = .error (.malformed (.key ⟨["-2"]⟩))
      ∧ (Rejection.malformed (.key ⟨["-2"]⟩)).message = "value of '-2': mapping keys must be scalars"
      ∧ Format.yamlValueMembers (.tagged "v" smooth)
        = .ok [("a", .object [("true", .string "x"), ("null", .null)])] := by
  have hbare : ∃ es, tangled.bare = .mapping es := ⟨_, rfl⟩
  have hfind : tangled.bare.keyPlaces.find? KeyPlace.isCollection
      = some ⟨[.number (.int (-2))], .sequence []⟩ := rfl
  have hbad : ∃ p ∈ tangled.bare.keyPlaces, p.key.isScalar = false := ⟨_, List.mem_of_find?_eq_some hfind, rfl⟩
  obtain ⟨es, hes⟩ := hbare
  obtain ⟨-, -, -, htold⟩ := yamlValueMembers_iff_isScalar tangled
  obtain ⟨p, names, hp, hpath, herror, hmessage⟩ := htold es hes hbad
  have hnames : names = ["-2"] := by
    rw [hfind] at hp
    cases hp
    cases hpath with
    | cons hname hrest =>
        cases hname
        cases hrest
        decide
  subst hnames
  obtain ⟨-, -, htags, -⟩ := yamlValueMembers_iff_isScalar smooth
  refine ⟨⟨es, hes⟩, hbad, herror, hmessage.trans (by decide), ?_⟩
  rw [htags (.tagged "v" smooth) rfl]
  rfl

end Stencil.Yaml
