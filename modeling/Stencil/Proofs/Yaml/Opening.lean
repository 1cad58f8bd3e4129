import Stencil.Proofs.Yaml.Conversion

/-!
# How a mapping opens

Whether a text can hold a mapping shows at its first token. A scalar in front is all that the text holds, and
a square bracket in front opens a sequence, whatever follows them. So a text has members in YAML only if its
first token opens a mapping, or if it is a property or a directive, behind which a mapping may follow.

Main statement: `mayOpenMapping_of_yamlMembers`.
-/

namespace Stencil.Yaml

/-- Whether a mapping may follow when a token is the first of a document. -/
def Token.mayOpenMapping : Token → Bool
  | .version .. | .tagHandle .. | .documentStart | .anchor _ | .tag .. | .blockMapping
  | .flowMapping => true
  | _ => false

/-- Whether a list starts with a token behind which a mapping may follow. -/
def MayOpenMapping (ts : List Token) : Prop := ∃ t, ts.head? = some t ∧ t.mayOpenMapping = true

/-! ## Nodes -/

section Node

variable {handles : Handles} {item : ItemReader} {indentless : Bool} {ts rest : List Token}
  {a t : Option String} {es : List (Node String × Node String)}

theorem properties?_of_not_mayOpenMapping (h : ¬ MayOpenMapping ts) :
    properties? handles ts = some (⟨none, none⟩, ts) := by
  unfold properties?
  split
  · exact absurd ⟨_, rfl, rfl⟩ h
  · exact absurd ⟨_, rfl, rfl⟩ h
  · exact absurd ⟨_, rfl, rfl⟩ h
  · exact absurd ⟨_, rfl, rfl⟩ h
  · rfl

theorem collection?_ne_mapping (h : ¬ MayOpenMapping ts) (p : Properties) :
    collection? item p indentless ts ≠ some (.mapping a t es, rest) := by
  unfold collection?
  split
  · split
    · simp
    · simp
  · simp
  · exact absurd ⟨_, rfl, rfl⟩ h
  · simp
  · exact absurd ⟨_, rfl, rfl⟩ h
  · simp

/-- Behind no properties a mapping can only be a collection. -/
theorem content?_ne_mapping {collection : Option (Node String × List Token)}
    (h : collection ≠ some (.mapping a t es, rest)) :
    content? collection ⟨none, none⟩ indentless ts ≠ some (.mapping a t es, rest) := by
  unfold content?
  split
  · exact h
  · split
    · simp
    · simp [Properties.isPresent]

theorem mayOpenMapping_of_node? {depth : Nat}
    (h : node? handles depth indentless ts = some (.mapping a t es, rest)) : MayOpenMapping ts := by
  refine Classical.byContradiction fun hn => ?_
  have hp : properties? handles ts = some (⟨none, none⟩, ts) := properties?_of_not_mayOpenMapping hn
  cases depth with
  | zero =>
      unfold node? at h
      split at h
      · cases h
      · rw [hp] at h
        exact content?_ne_mapping (by simp) h
  | succ depth =>
      unfold node? at h
      split at h
      · cases h
      · rw [hp] at h
        exact content?_ne_mapping (collection?_ne_mapping hn _) h

theorem mayOpenMapping_of_document? (h : document? ts = some (.mapping a t es)) :
    MayOpenMapping ts := by
  unfold document? at h
  cases hf : firstNode? ts with
  | none => simp [hf] at h
  | some found =>
      obtain ⟨node, rest⟩ := found
      obtain rfl : node = .mapping a t es := by
        simp only [hf] at h
        split at h
        · exact Option.some.inj h
        · contradiction
      cases ts with
      | nil => cases hf
      | cons u us =>
          simp only [firstNode?] at hf
          split at hf
          · rename_i hb
            refine ⟨u, rfl, ?_⟩
            cases u <;> first | rfl | simp [isBetweenDocuments] at hb
          · exact mayOpenMapping_of_node? hf

end Node

/-! ## Trees and values -/

/-- Only a mapping has a mapping for its tree. -/
theorem exists_mapping_of_tree? {depth : Nat} {node : Node String} {tag : Option String}
    {es : List (Tree × Tree)} (h : node.tree? depth = some (.mapping tag es)) :
    ∃ a t fs, node = .mapping a t fs := by
  rcases node with ⟨a, t, plain, text⟩ | ⟨a, t, items⟩ | ⟨a, t, fs⟩ | a
  case mapping => exact ⟨a, t, fs, rfl⟩
  case scalar => cases depth <;> simp [Node.tree?, Node.number, expand, follow?] at h
  case «alias» => simp [Node.tree?, Node.number, Members.get?] at h
  case sequence =>
    cases hn : numberItems (Names.define [] a).2 items with
    | none => simp [Node.tree?, Node.number, hn] at h
    | some numbered =>
        cases depth with
        | zero => simp [Node.tree?, Node.number, expand, follow?, hn] at h
        | succ depth =>
            simp only [Node.tree?, Node.number, hn, expand, follow?, bind, Option.map_some,
              Option.bind_some, Option.bind_eq_some_iff, Option.map_eq_some_iff] at h
            obtain ⟨found, ⟨items, -, rfl⟩, he⟩ := h
            cases he

@[simp] theorem mapping?_underTag (tag : Option String) (value : Value) :
    (underTag tag value).mapping? = value.mapping? := by
  unfold underTag
  split <;> rfl

theorem isScalar_of_plainScalar? {text : String} {value : Value} (h : plainScalar? text = some value) :
    value.isScalar = true := by
  unfold plainScalar? at h
  repeat' split at h
  all_goals first | contradiction | (cases h; rfl)

theorem isScalar_of_untagged? {plain : Bool} {text : String} {value : Value}
    (h : untagged? plain text = some value) : value.isScalar = true := by
  unfold untagged? at h
  split at h
  · exact isScalar_of_plainScalar? h
  · cases h
    rfl

theorem isScalar_of_globallyTagged? {tag text : String} {value : Value}
    (h : globallyTagged? tag text = some value) : value.isScalar = true := by
  unfold globallyTagged? at h
  split at h
  · obtain ⟨b, -, rfl⟩ := Option.map_eq_some_iff.mp h
    rfl
  · split at h
    · split at h
      · cases h
        rfl
      · contradiction
    · split at h
      · obtain ⟨x, -, rfl⟩ := Option.map_eq_some_iff.mp h
        rfl
      · repeat' split at h
        all_goals first | contradiction | (cases h; rfl)

/-- A scalar is no collection, whatever its tag. -/
theorem isScalar_of_scalar? {tag : Option String} {plain : Bool} {text : String} {value : Value}
    (h : scalar? tag plain text = some value) : value.isScalar = true := by
  unfold scalar? at h
  split at h
  · exact isScalar_of_untagged? h
  · split at h
    · obtain ⟨inner, hi, rfl⟩ := Option.map_eq_some_iff.mp h
      show inner.isScalar = true
      exact isScalar_of_untagged? hi
    · split at h
      · exact isScalar_of_untagged? h
      · exact isScalar_of_globallyTagged? h

/-- Only the tree of a mapping is read as one. -/
theorem exists_mapping_of_ofTree? {tree : Tree} {value : Value} {entries : List (Value × Value)}
    (h : Value.ofTree? tree = some value) (hm : value.mapping? = some entries) :
    ∃ tag es, tree = .mapping tag es := by
  cases tree with
  | mapping tag es => exact ⟨tag, es, rfl⟩
  | scalar tag plain text =>
      rw [mapping?_of_isScalar (isScalar_of_scalar? h)] at hm
      contradiction
  | sequence tag items =>
      obtain ⟨values, -, rfl⟩ := Option.map_eq_some_iff.mp h
      rw [mapping?_underTag] at hm
      contradiction

/-! ## Texts -/

/-- **A text with members starts with a token behind which a mapping may follow.** -/
theorem mayOpenMapping_of_yamlMembers {text : String} {ms : Members Json}
    (h : Format.yamlMembers text = .ok ms) :
    ∃ ts, tokens? text.toList = some ts ∧ MayOpenMapping ts := by
  unfold Format.yamlMembers at h
  cases hp : parse? text with
  | none => simp [hp] at h
  | some value =>
      obtain ⟨tree, ht, hv⟩ := Option.bind_eq_some_iff.mp hp
      have hm : ∃ entries, value.mapping? = some entries := by
        cases hm : value.mapping? with
        | none => simp [hp, Format.yamlValueMembers, hm] at h
        | some entries => exact ⟨entries, rfl⟩
      obtain ⟨entries, hm⟩ := hm
      obtain ⟨tag, es, rfl⟩ := exists_mapping_of_ofTree? hv hm
      simp only [Tree.ofText?, bind, Option.bind_eq_some_iff] at ht
      obtain ⟨ts, htokens, node, hd, hn⟩ := ht
      obtain ⟨a, t, fs, rfl⟩ := exists_mapping_of_tree? hn
      exact ⟨ts, htokens, mayOpenMapping_of_document? hd⟩

end Stencil.Yaml
