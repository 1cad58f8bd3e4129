import Stencil.Proofs.Format.Chain
import Stencil.Proofs.Members
import Stencil.Proofs.Yaml.Conversion
import Stencil.Proofs.Yaml.Opening
import Stencil.Proofs.Yaml.Written.Value

/-!
# Keys with the same text

YAML tells the number 1 from the string that looks like it, and a key under a tag from the key without. In JSON such
keys are one name: the member stands where the first of them stood and has the value of the last. So a mapping keeps
all its entries exactly when the texts of its keys are distinct.

A step leads from a value to one of its parts. What stands at the end of steps into the converted value was converted
from what stands at the end of the same steps into the YAML value (`exists_at?_of_toJson`), where the step to a member
leads to the last entry of its name.

Main statement: `keys_at?_of_read_yaml`.
-/

namespace Stencil

/-! ## Steps -/

/-- A step into a value: to an item, or to the member of a name. -/
inductive Step where
  | item (i : Nat)
  | member (name : String)
  deriving DecidableEq, Repr

/-- Where a step into a JSON value leads. -/
def Json.step? : Json → Step → Option Json
  | .array items, .item i => items[i]?
  | .object members, .member name => Members.get? members name
  | _, _ => none

/-- Where steps into a JSON value lead. -/
def Json.at? : Json → List Step → Option Json
  | j, [] => some j
  | j, s :: steps => (j.step? s).bind fun k => k.at? steps

namespace Yaml

/-- Where a step into a value leads, whatever its tags. The member of a name is the value of the last entry whose key
has the name as its text. -/
def Value.step? : Value → Step → Option Value
  | .tagged _ v, s => v.step? s
  | .sequence items, .item i => items[i]?
  | .mapping entries, .member name => (entries.reverse.find? fun e => keyText? e.1 = some name).map Prod.snd
  | _, _ => none

def Value.at? : Value → List Step → Option Value
  | v, [] => some v
  | v, s :: steps => (v.step? s).bind fun w => w.at? steps

variable {v w : Value} {j k : Json} {s : Step} {steps : List Step} {es : List (Value × Value)}

/-! ## Parts that are converted -/

theorem exists_getElem?_of_forall₂ {α β : Type} {r : α → β → Prop} {as : List α} {bs : List β}
    (h : List.Forall₂ r as bs) {i : Nat} {b : β} (hb : bs[i]? = some b) : ∃ a, as[i]? = some a ∧ r a b := by
  induction h generalizing i with
  | nil => contradiction
  | @cons a c as bs hr _ ih =>
      cases i with
      | zero =>
          obtain rfl := Option.some.inj hb
          exact ⟨a, rfl, hr⟩
      | succ i => exact ih hb

/-- **A part of a converted value** was converted from the same part of the value. -/
theorem exists_step?_of_toJson : ∀ {v : Value}, v.toJson = .ok j → j.step? s = some k →
    ∃ w, v.step? s = some w ∧ w.toJson = .ok k
  | .null, h, hk | .bool _, h, hk | .string _, h, hk => by
      cases h
      cases hk
  | .number n, h, hk => by
      cases h
      cases n with
      | int n => cases hk
      | float x =>
          rw [jsonNumber] at hk
          split at hk <;> cases hk
  | .sequence items, h, hk => by
      obtain ⟨js, hjs, rfl⟩ := map_eq_ok_iff.mp h
      cases s with
      | member name => contradiction
      | item i => exact exists_getElem?_of_forall₂ (jsonItems_eq_ok_iff.mp hjs) hk
  | .mapping entries, h, hk => by
      obtain ⟨ms, hms, rfl⟩ := map_eq_ok_iff.mp h
      cases s with
      | item i => contradiction
      | member name =>
          rw [Json.step?, Members.get?_ofEntries_eq_find?] at hk
          obtain ⟨m, hm, rfl⟩ := Option.map_eq_some_iff.mp hk
          -- Of the entries that are called the same the last one counts, so both are searched from the end.
          have hreverse := List.forall₂_reverse_iff.mpr (jsonMembers_eq_ok_iff.mp hms)
          obtain ⟨e, he, hkey, hvalue⟩ := exists_find?_of_forall₂ (p := fun e => keyText? e.1 = some name)
            hreverse (fun e m h => by simp [h.1]) hm
          exact ⟨e.2, by rw [Value.step?, he, Option.map_some], hvalue⟩
  | .tagged _ v, h, hk => exists_step?_of_toJson (v := v) h hk

/-- What stands at the end of steps was converted from what stands at the end of the same steps. -/
theorem exists_at?_of_toJson (h : v.toJson = .ok j) (hk : j.at? steps = some k) :
    ∃ w, v.at? steps = some w ∧ w.toJson = .ok k := by
  induction steps generalizing v j with
  | nil =>
      obtain rfl := Option.some.inj hk
      exact ⟨v, rfl, h⟩
  | cons s steps ih =>
      obtain ⟨i, hi, hk⟩ := Option.bind_eq_some_iff.mp hk
      obtain ⟨u, hu, hui⟩ := exists_step?_of_toJson h hi
      obtain ⟨w, hw, hwk⟩ := ih hui hk
      exact ⟨w, by rw [Value.at?, hu, Option.bind_some, hw], hwk⟩

/-- An object was converted from a mapping, and its names are the texts of the keys, each where it first came. -/
theorem exists_names_of_toJson {ms : Members Json} (h : v.toJson = .ok (.object ms)) :
    ∃ es, ∃ names : List String, v.mapping? = some es ∧ es.map (fun e => keyText? e.1) = names.map some
      ∧ Members.keys ms = names.eraseDups ∧ (ms.length = es.length ↔ names.Nodup) := by
  obtain ⟨es, hes⟩ := exists_mapping?_of_becomes ((toJson_eq_ok_iff v).mp h)
  rw [toJson_of_mapping? hes, map_eq_ok_iff] at h
  obtain ⟨raw, hraw, hms⟩ := h
  obtain rfl := Json.object.inj hms
  have hall := jsonMembers_eq_ok_iff.mp hraw
  refine ⟨es, Members.keys raw, hes, ?_, Members.keys_ofEntries raw, ?_⟩
  · have htexts : List.Forall₂ (· = ·) (es.map fun e => keyText? e.1) ((Members.keys raw).map some) := by
      simp only [Members.keys, List.forall₂_map_left_iff, List.forall₂_map_right_iff]
      exact hall.imp fun e m hem => hem.1
    exact List.forall₂_eq_eq_eq ▸ htexts
  · rw [hall.length_eq, Members.length_ofEntries_eq_iff]

/-! ## Keys that are told apart -/

theorem exists_tree_of_valuesOfItems? : ∀ {ts : List Tree} {vs : List Value}, valuesOfItems? ts = some vs →
    ∀ w ∈ vs, ∃ t, Value.ofTree? t = some w
  | [], _, h, w, hw => by
      cases h
      cases hw
  | t :: ts, _, h, w, hw => by
      obtain ⟨u, hu, h⟩ := Option.bind_eq_some_iff.mp h
      obtain ⟨us, hus, h⟩ := Option.bind_eq_some_iff.mp h
      cases h
      rcases List.mem_cons.mp hw with rfl | hw
      · exact ⟨t, hu⟩
      · exact exists_tree_of_valuesOfItems? hus w hw

theorem exists_tree_of_valuesOfEntries? : ∀ {ts : List (Tree × Tree)} {es : List (Value × Value)},
    valuesOfEntries? ts = some es → ∀ e ∈ es, ∃ t, Value.ofTree? t = some e.2
  | [], _, h, e, he => by
      cases h
      cases he
  | (_, t) :: ts, _, h, e, he => by
      obtain ⟨u, -, h⟩ := Option.bind_eq_some_iff.mp h
      obtain ⟨x, hx, h⟩ := Option.bind_eq_some_iff.mp h
      obtain ⟨es, hes, h⟩ := Option.bind_eq_some_iff.mp h
      cases h
      rcases List.mem_cons.mp he with rfl | he
      · exact ⟨t, hx⟩
      · exact exists_tree_of_valuesOfEntries? hes e he

theorem step?_of_isScalar : ∀ {v : Value}, v.isScalar = true → v.step? s = none
  | .null, _ | .bool _, _ | .number _, _ | .string _, _ => by cases s <;> rfl
  | .sequence _, h | .mapping _, h => by contradiction
  | .tagged _ v, h => step?_of_isScalar (v := v) h

/-- Tags around a value lead nowhere else. -/
theorem step?_underTag (tag : Option String) (v : Value) (s : Step) : (underTag tag v).step? s = v.step? s := by
  unfold underTag
  split <;> rfl

/-- Steps from a value that is read lead to values that are read. -/
theorem exists_tree_of_step? {t : Tree} (h : Value.ofTree? t = some v) (hw : v.step? s = some w) :
    ∃ t, Value.ofTree? t = some w := by
  cases t with
  | scalar tag plain text =>
      rw [step?_of_isScalar (isScalar_of_scalar? h)] at hw
      contradiction
  | sequence tag ts =>
      obtain ⟨vs, hvs, rfl⟩ := Option.map_eq_some_iff.mp h
      rw [step?_underTag] at hw
      cases s with
      | member name => contradiction
      | item i => exact exists_tree_of_valuesOfItems? hvs w (List.mem_of_getElem? hw)
  | mapping tag ts =>
      obtain ⟨es, hes, h⟩ := Option.bind_eq_some_iff.mp h
      split at h
      · obtain rfl := Option.some.inj h
        rw [step?_underTag] at hw
        cases s with
        | item i => contradiction
        | member name =>
            obtain ⟨e, he, rfl⟩ := Option.map_eq_some_iff.mp hw
            exact exists_tree_of_valuesOfEntries? hes e (List.mem_reverse.mp (List.mem_of_find?_eq_some he))
      · contradiction

theorem exists_tree_of_at? {t : Tree} (h : Value.ofTree? t = some v) (hw : v.at? steps = some w) :
    ∃ t, Value.ofTree? t = some w := by
  induction steps generalizing v t with
  | nil =>
      obtain rfl := Option.some.inj hw
      exact ⟨t, h⟩
  | cons s steps ih =>
      obtain ⟨u, hu, hw⟩ := Option.bind_eq_some_iff.mp hw
      obtain ⟨t, ht⟩ := exists_tree_of_step? h hu
      exact ih ht hw

/-- **Reading tells keys apart.** -/
theorem distinctKeys_of_ofTree? {t : Tree} (h : Value.ofTree? t = some v) (hm : v.mapping? = some es) :
    distinctKeys es = true := by
  obtain ⟨tag, ts, rfl⟩ := exists_mapping_of_ofTree? h hm
  obtain ⟨fs, -, h⟩ := Option.bind_eq_some_iff.mp h
  split at h
  · rename_i hd
    obtain rfl := Option.some.inj h
    rw [mapping?_underTag] at hm
    obtain rfl := Option.some.inj hm
    exact hd
  · contradiction

/-! ## Texts -/

theorem exists_parse?_of_read_yaml {text : String} {vars : Variables} (h : Format.read .yaml text = .ok vars) :
    ∃ v, parse? text = some v ∧ v.toJson = .ok vars.toJson := by
  have hmembers : Format.yamlMembers text = .ok vars.members := Format.members_of_read h
  unfold Format.yamlMembers at hmembers
  split at hmembers
  · contradiction
  · rename_i v hv
    exact ⟨v, hv, (toJson_eq_ok_iff v).mpr (yamlValueMembers_eq_ok_iff.mp hmembers)⟩

theorem eq_of_map_keyText? {names strings : List String} (hs : es.map Prod.fst = strings.map .string)
    (hn : es.map (fun e => keyText? e.1) = names.map some) : names = strings := by
  have hmap : names.map some = strings.map some := by
    calc names.map some = (es.map Prod.fst).map keyText? := by rw [← hn, List.map_map]; rfl
      _ = strings.map some := by rw [hs, List.map_map]; rfl
  exact List.map_injective_iff.mpr (fun _ _ h => Option.some.inj h) hmap

/-- **Entries are lost exactly where keys of one mapping have the same text.** All parts of what is read were converted
from the parts at the same places, where a name leads to the last entry that has it as its text. An object was
converted from a mapping whose keys differ. Its names are the texts of the keys, each where it first came, so that no
entry of the mapping is lost exactly when those are distinct, which they are when all keys are strings. -/
theorem keys_at?_of_read_yaml {text : String} {vars : Variables} (h : Format.read .yaml text = .ok vars) :
    ∃ v, parse? text = some v ∧ ∀ steps j, vars.toJson.at? steps = some j →
      ∃ w, v.at? steps = some w ∧ w.toJson = .ok j ∧ ∀ ms, j = .object ms →
        ∃ es, ∃ names : List String, w.mapping? = some es ∧ distinctKeys es = true
          ∧ es.map (fun e => keyText? e.1) = names.map some ∧ Members.keys ms = names.eraseDups
          ∧ (ms.length = es.length ↔ names.Nodup)
          ∧ ((∃ strings : List String, es.map Prod.fst = strings.map .string) → ms.length = es.length) := by
  obtain ⟨v, hv, hjson⟩ := exists_parse?_of_read_yaml h
  refine ⟨v, hv, fun steps j hj => ?_⟩
  obtain ⟨t, -, ht⟩ := Option.bind_eq_some_iff.mp hv
  obtain ⟨w, hw, hwjson⟩ := exists_at?_of_toJson hjson hj
  obtain ⟨u, hu⟩ := exists_tree_of_at? ht hw
  refine ⟨w, hw, hwjson, ?_⟩
  rintro ms rfl
  obtain ⟨es, names, hes, htexts, hkeys, hlength⟩ := exists_names_of_toJson hwjson
  have hdistinct := distinctKeys_of_ofTree? hu hes
  refine ⟨es, names, hes, hdistinct, htexts, hkeys, hlength, ?_⟩
  rintro ⟨strings, hstrings⟩
  rw [hlength, eq_of_map_keyText? hstrings htexts]
  simpa [distinctKeys_of_names hstrings] using hdistinct

def names? : Json → Option (List String)
  | .object ms => some (Members.keys ms)
  | _ => none

theorem exists_of_names? {j : Json} {names : List String} (h : names? j = some names) :
    ∃ ms, j = .object ms ∧ Members.keys ms = names := by
  cases j with
  | object ms => exact ⟨ms, rfl, Option.some.inj h⟩
  | null | bool | number | string | array => contradiction

/-- A mapping inside of another, with keys that differ in their kinds or tags only. -/
def likened : String := "a:\n  1: x\n  true: y\n  \"1\": z\n  !t 1: [x]\n"

theorem keys_at?_of_read_yaml_likened :
    ∃ vars ms v w es, ∃ names : List String, Format.read .yaml likened = .ok vars
      ∧ vars.toJson.at? [.member "a"] = some (.object ms) ∧ parse? likened = some v
      ∧ v.at? [.member "a"] = some w ∧ w.toJson = .ok (.object ms) ∧ w.mapping? = some es ∧ distinctKeys es = true
      ∧ es.map (fun e => keyText? e.1) = names.map some ∧ Members.keys ms = ["1", "true"]
      ∧ names.eraseDups = ["1", "true"] ∧ es.length = 4 ∧ ¬ names.Nodup := by
  have hok : (Format.read .yaml likened).isOk = true := by decide +kernel
  have hnames : ((Format.read .yaml likened).toOption.bind fun vars => vars.toJson.at? [.member "a"]).bind names?
      = some ["1", "true"] := by decide +kernel
  have hparse : ((parse? likened).bind fun v => (v.at? [.member "a"]).bind Value.mapping?).map List.length
      = some 4 := by decide +kernel
  obtain ⟨vars, hvars⟩ := exists_read_of_isOk hok
  obtain ⟨j, hj, hkeys⟩ := Option.bind_eq_some_iff.mp hnames
  rw [hvars] at hj
  obtain ⟨ms, rfl, hms⟩ := exists_of_names? hkeys
  obtain ⟨v, hv, hall⟩ := keys_at?_of_read_yaml hvars
  obtain ⟨w, hw, hwjson, hobject⟩ := hall _ _ hj
  obtain ⟨es, names, hes, hdistinct, htexts, hfirst, hlength, -⟩ := hobject ms rfl
  rw [hv, Option.bind_some, hw, Option.bind_some, hes] at hparse
  have hfour : es.length = 4 := Option.some.inj hparse
  have htwo : ms.length = 2 := by rw [← List.length_map Prod.fst, ← Members.keys, hms]; rfl
  refine ⟨vars, ms, v, w, es, names, hvars, hj, hv, hw, hwjson, hes, hdistinct, htexts, hms, hfirst.symm.trans hms,
    hfour, ?_⟩
  rw [← hlength]
  omega

/-- The number and the string become one name. -/
def twins : String := "1: a\n\"1\": b\n"

/-- **Distinct keys do not always stay distinct.** -/
theorem not_forall_length_eq_of_read_yaml :
    ¬ ∀ text vars, Format.read .yaml text = .ok vars →
      ∃ v, parse? text = some v ∧ ∀ steps ms, vars.toJson.at? steps = some (.object ms) →
        ∃ w es, v.at? steps = some w ∧ w.mapping? = some es ∧ ms.length = es.length := by
  intro h
  have hok : (Format.read .yaml twins).isOk = true := by decide +kernel
  have hread : (Format.read .yaml twins).toOption.map (fun vars => vars.members.length) = some 1 := by
    decide +kernel
  have hparse : ((parse? twins).bind Value.mapping?).map List.length = some 2 := by decide +kernel
  obtain ⟨vars, hvars⟩ := exists_read_of_isOk hok
  obtain ⟨v, hv, hall⟩ := h twins vars hvars
  obtain ⟨w, es, hw, hes, hlength⟩ := hall [] vars.members rfl
  obtain rfl := Option.some.inj hw
  rw [hvars] at hread
  rw [hv, Option.bind_some, hes] at hparse
  have hone : vars.members.length = 1 := Option.some.inj hread
  have htwo : es.length = 2 := Option.some.inj hparse
  omega

end Yaml

end Stencil
