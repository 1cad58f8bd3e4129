import Stencil.Proofs.Yaml.Collision
import Stencil.Proofs.Yaml.Order

/-!
# Keys in the order of the text

The names of an object that is read from YAML are the texts of the keys of a mapping in the document, in the order
of the entries, and these stand in the text one behind the other (`Lists`). Aliases are no exception: an object that
is reached through one is the mapping that the alias refers to, and that stands in the text as well.

A node of the document tells a value when the value is what is read from the node with its aliases replaced
(`Tells`). The keys of a node, its entries and what names lead to from there can be told without replacing anything,
and they are those of the value.

Main statement: `exists_lists_of_read_yaml`.
-/

namespace Stencil.Yaml

variable {doc node key : Node Nat} {table : List (Nat × Node Nat)} {v w : Value} {name : String}
  {place names : List String} {es : List (Value × Value)}

/-! ## Numbered nodes -/

mutual

/-- Numbering leaves the atoms as they are. -/
theorem atoms_of_number : ∀ {v : Node String} {names after : Names} {w : Node Nat},
    v.number names = some (w, after) → w.atoms = v.atoms
  | .scalar .., _, _, _, h => by
      cases h
      rfl
  | .sequence .., _, _, _, h => by
      obtain ⟨⟨items, more⟩, hitems, h⟩ := Option.map_eq_some_iff.mp h
      cases h
      exact atomsOfItems_of_number hitems
  | .mapping .., _, _, _, h => by
      obtain ⟨⟨entries, more⟩, hentries, h⟩ := Option.map_eq_some_iff.mp h
      cases h
      exact atomsOfEntries_of_number hentries
  | .alias _, _, _, _, h => by
      obtain ⟨n, -, h⟩ := Option.map_eq_some_iff.mp h
      cases h
      rfl

theorem atomsOfItems_of_number : ∀ {vs : List (Node String)} {names after : Names} {ws : List (Node Nat)},
    numberItems names vs = some (ws, after) → atomsOfItems ws = atomsOfItems vs
  | [], _, _, _, h => by
      cases h
      rfl
  | v :: vs, _, _, _, h => by
      obtain ⟨⟨w, mid⟩, hv, h⟩ := Option.bind_eq_some_iff.mp h
      obtain ⟨⟨ws, more⟩, hvs, h⟩ := Option.bind_eq_some_iff.mp h
      cases h
      rw [atomsOfItems, atomsOfItems, atoms_of_number hv, atomsOfItems_of_number hvs]

theorem atomsOfEntries_of_number : ∀ {es : List (Node String × Node String)} {names after : Names}
    {fs : List (Node Nat × Node Nat)}, numberEntries names es = some (fs, after) →
      atomsOfEntries fs = atomsOfEntries es
  | [], _, _, _, h => by
      cases h
      rfl
  | (k, v) :: es, _, _, _, h => by
      obtain ⟨⟨l, mid⟩, hk, h⟩ := Option.bind_eq_some_iff.mp h
      obtain ⟨⟨w, behind⟩, hv, h⟩ := Option.bind_eq_some_iff.mp h
      obtain ⟨⟨fs, more⟩, hes, h⟩ := Option.bind_eq_some_iff.mp h
      cases h
      rw [atomsOfEntries, atomsOfEntries, atoms_of_number hk, atoms_of_number hv, atomsOfEntries_of_number hes]

end

/-! ## Parts of a document -/

/-- An anchor adds the node that it is in front of. -/
theorem isInfix_of_anchorOf {anchor : Option Nat} {p : Nat × Node Nat} (hp : p ∈ anchorOf anchor node) :
    p.2.atoms <:+: node.atoms := by
  cases anchor with
  | none => cases hp
  | some n =>
      obtain rfl := List.mem_singleton.mp hp
      exact List.infix_refl _

mutual

/-- The atoms of an anchored node stand together in the node that it is in. -/
theorem isInfix_of_anchored : ∀ {v : Node Nat}, ∀ p ∈ v.anchored, p.2.atoms <:+: v.atoms
  | .scalar .., _, hp => isInfix_of_anchorOf hp
  | .sequence .., p, hp => (List.mem_append.mp hp).elim isInfix_of_anchorOf (isInfix_of_anchoredItems p)
  | .mapping .., p, hp => (List.mem_append.mp hp).elim isInfix_of_anchorOf (isInfix_of_anchoredEntries p)
  | .alias _, _, hp => by cases hp

theorem isInfix_of_anchoredItems : ∀ {vs : List (Node Nat)}, ∀ p ∈ anchoredItems vs, p.2.atoms <:+: atomsOfItems vs
  | [], _, hp => by cases hp
  | v :: vs, p, hp => by
      rcases List.mem_append.mp hp with hp | hp
      · exact List.infix_append_of_infix_left (isInfix_of_anchored p hp)
      · exact List.infix_append_of_infix_right (isInfix_of_anchoredItems p hp)

theorem isInfix_of_anchoredEntries : ∀ {es : List (Node Nat × Node Nat)}, ∀ p ∈ anchoredEntries es,
    p.2.atoms <:+: atomsOfEntries es
  | [], _, hp => by cases hp
  | (k, v) :: es, p, hp => by
      rw [anchoredEntries, List.append_assoc] at hp
      rcases List.mem_append.mp hp with hp | hp
      · exact List.infix_append_of_infix_left (isInfix_of_anchored p hp)
      refine List.infix_append_of_infix_right ?_
      rcases List.mem_append.mp hp with hp | hp
      · exact List.infix_append_of_infix_left (isInfix_of_anchored p hp)
      · exact List.infix_append_of_infix_right (isInfix_of_anchoredEntries p hp)

end

theorem isInfix_of_mem {entries : List (Node Nat × Node Nat)} {e : Node Nat × Node Nat} (h : e ∈ entries) :
    e.2.atoms <:+: atomsOfEntries entries := by
  induction entries with
  | nil => cases h
  | cons f entries ih =>
      refine List.infix_append_of_infix_right ?_
      rcases List.mem_cons.mp h with rfl | h
      · exact List.infix_append_of_infix_left (List.infix_refl _)
      · exact List.infix_append_of_infix_right (ih h)

/-! ## What a node means -/

namespace Node

/-- The node itself, or what it refers to. -/
def meant? (table : List (Nat × Node Nat)) : Node Nat → Option (Node Nat)
  | .alias n => meaning? table n
  | node => some node

/-- The text of a node that is a key; collections have none. -/
def keyText? (table : List (Nat × Node Nat)) (key : Node Nat) : Option String :=
  match key.meant? table with
  | some (.scalar _ tag plain text) => (scalar? tag plain text).bind Yaml.keyText?
  | _ => none

def entries? (table : List (Nat × Node Nat)) (node : Node Nat) : Option (List (Node Nat × Node Nat)) :=
  match node.meant? table with
  | some (.mapping _ _ entries) => some entries
  | _ => none

/-- The value of the last entry of a name. -/
def member? (table : List (Nat × Node Nat)) (node : Node Nat) (name : String) : Option (Node Nat) :=
  (node.entries? table).bind fun entries =>
    (entries.reverse.find? fun e => e.1.keyText? table = some name).map Prod.snd

/-- What names lead to. -/
def walk? (table : List (Nat × Node Nat)) : Node Nat → List String → Option (Node Nat)
  | node, [] => some node
  | node, name :: names => (node.member? table name).bind fun part => part.walk? table names

/-- Whether a value is what is read from a node with its aliases replaced. -/
def Tells (table : List (Nat × Node Nat)) (node : Node Nat) (v : Value) : Prop :=
  ∃ depth follows tree left, expand table depth node follows = some (tree, left) ∧ Value.ofTree? tree = some v

end Node

open Node

/-- What a node means stands in the document. -/
theorem isInfix_of_meant? (h : node.atoms <:+: doc.atoms) {m : Node Nat} (hm : node.meant? doc.anchored = some m) :
    m.atoms <:+: doc.atoms := by
  match node, hm with
  | .alias _, hm =>
      obtain ⟨p, hp, rfl⟩ := Option.map_eq_some_iff.mp hm
      exact isInfix_of_anchored p (List.mem_reverse.mp (List.mem_of_find?_eq_some hp))
  | .scalar .., hm | .sequence .., hm | .mapping .., hm =>
      obtain rfl := Option.some.inj hm
      exact h

theorem isInfix_of_entries? (h : node.atoms <:+: doc.atoms) {entries : List (Node Nat × Node Nat)}
    (he : node.entries? doc.anchored = some entries) : atomsOfEntries entries <:+: doc.atoms := by
  unfold entries? at he
  split at he
  · rename_i hm
    obtain rfl := Option.some.inj he
    exact isInfix_of_meant? h hm
  · contradiction

/-- **What names lead to stands in the document.** -/
theorem isInfix_of_walk? {part : Node Nat} (h : node.atoms <:+: doc.atoms)
    (hp : node.walk? doc.anchored names = some part) : part.atoms <:+: doc.atoms := by
  induction names generalizing node with
  | nil =>
      obtain rfl := Option.some.inj hp
      exact h
  | cons name names ih =>
      obtain ⟨next, hnext, hp⟩ := Option.bind_eq_some_iff.mp hp
      obtain ⟨entries, hentries, hnext⟩ := Option.bind_eq_some_iff.mp hnext
      obtain ⟨e, he, rfl⟩ := Option.map_eq_some_iff.mp hnext
      have hmem : e ∈ entries := List.mem_reverse.mp (List.mem_of_find?_eq_some he)
      exact ih ((isInfix_of_mem hmem).trans (isInfix_of_entries? h hentries)) hp

/-! ## What a node tells -/

theorem meant?_of_follow? {follows left : Nat} {m : Node Nat} (h : follow? table follows node = some (m, left)) :
    node.meant? table = some m := by
  unfold follow? at h
  split at h
  · split at h
    · contradiction
    · obtain ⟨m, hm, he⟩ := Option.map_eq_some_iff.mp h
      cases he
      exact hm
  · rename_i hne
    cases h
    match node, hne with
    | .alias n, hne => exact absurd rfl (hne n)
    | .scalar .., _ | .sequence .., _ | .mapping .., _ => rfl

/-- What a node is expanded to is of the kind of what it means. -/
theorem expand_cases {depth follows left : Nat} {tree : Tree}
    (h : expand table depth node follows = some (tree, left)) :
    (∃ anchor tag plain text, node.meant? table = some (.scalar anchor tag plain text)
        ∧ tree = .scalar tag plain text)
      ∨ (∃ anchor tag items trees, node.meant? table = some (.sequence anchor tag items)
        ∧ tree = .sequence tag trees)
      ∨ ∃ depth follows left anchor tag entries trees, node.meant? table = some (.mapping anchor tag entries)
        ∧ tree = .mapping tag trees
        ∧ expandEntries (expand table depth) entries follows = some (trees, left) := by
  -- Nothing but a scalar is expanded at the last level.
  cases depth with
  | zero =>
      obtain ⟨⟨m, more⟩, hm, h⟩ := Option.bind_eq_some_iff.mp h
      have hmeant := meant?_of_follow? hm
      cases m with
      | scalar anchor tag plain text =>
          cases h
          exact .inl ⟨anchor, tag, plain, text, hmeant, rfl⟩
      | _ => contradiction
  | succ depth =>
      obtain ⟨⟨m, more⟩, hm, h⟩ := Option.bind_eq_some_iff.mp h
      have hmeant := meant?_of_follow? hm
      cases m with
      | scalar anchor tag plain text =>
          cases h
          exact .inl ⟨anchor, tag, plain, text, hmeant, rfl⟩
      | sequence anchor tag items =>
          obtain ⟨⟨trees, left⟩, -, h⟩ := Option.map_eq_some_iff.mp h
          cases h
          exact .inr (.inl ⟨anchor, tag, items, trees, hmeant, rfl⟩)
      | mapping anchor tag entries =>
          obtain ⟨⟨trees, left⟩, htrees, h⟩ := Option.map_eq_some_iff.mp h
          cases h
          exact .inr (.inr ⟨depth, _, _, anchor, tag, entries, trees, hmeant, rfl, htrees⟩)
      | _ => contradiction

/-- **A key has the text of the value that it tells.** -/
theorem keyText?_of_tells (h : key.Tells table v) : key.keyText? table = Yaml.keyText? v := by
  obtain ⟨depth, follows, tree, left, hexpand, hv⟩ := h
  have hcollection (hs : v.isScalar = false) : none = Yaml.keyText? v := (keyText?_eq_none_iff.mpr hs).symm
  unfold Node.keyText?
  obtain ⟨anchor, tag, plain, text, hm, rfl⟩ | ⟨anchor, tag, items, trees, hm, rfl⟩
    | ⟨-, -, -, anchor, tag, entries, trees, hm, rfl, -⟩ := expand_cases hexpand
  · rw [hm]
    show (scalar? tag plain text).bind Yaml.keyText? = _
    rw [show scalar? tag plain text = some v from hv, Option.bind_some]
  · rw [hm]
    obtain ⟨vs, -, rfl⟩ := Option.map_eq_some_iff.mp hv
    exact hcollection (by unfold underTag; split <;> rfl)
  · rw [hm]
    obtain ⟨es, -, hv⟩ := Option.bind_eq_some_iff.mp hv
    split at hv
    · obtain rfl := Option.some.inj hv
      exact hcollection (by unfold underTag; split <;> rfl)
    · contradiction

theorem forall₂_of_expandEntries {depth follows left : Nat} {entries : List (Node Nat × Node Nat)}
    {trees : List (Tree × Tree)} (h : expandEntries (expand table depth) entries follows = some (trees, left))
    (hes : valuesOfEntries? trees = some es) :
    List.Forall₂ (fun e f => e.1.Tells table f.1 ∧ e.2.Tells table f.2) entries es := by
  induction entries generalizing follows trees es with
  | nil =>
      cases h
      cases hes
      exact .nil
  | cons e entries ih =>
      obtain ⟨⟨k, mid⟩, hk, h⟩ := Option.bind_eq_some_iff.mp h
      obtain ⟨⟨t, behind⟩, ht, h⟩ := Option.bind_eq_some_iff.mp h
      obtain ⟨⟨trees, more⟩, htrees, h⟩ := Option.bind_eq_some_iff.mp h
      cases h
      obtain ⟨x, hx, hes⟩ := Option.bind_eq_some_iff.mp hes
      obtain ⟨y, hy, hes⟩ := Option.bind_eq_some_iff.mp hes
      obtain ⟨es, hrest, hes⟩ := Option.bind_eq_some_iff.mp hes
      cases hes
      exact .cons ⟨⟨_, _, _, _, hk, hx⟩, ⟨_, _, _, _, ht, hy⟩⟩ (ih htrees hrest)

/-- **The entries of a mapping are told one by one**, in their order. -/
theorem exists_entries?_of_tells (h : node.Tells table v) (hm : v.mapping? = some es) :
    ∃ entries, node.entries? table = some entries
      ∧ List.Forall₂ (fun e f => e.1.Tells table f.1 ∧ e.2.Tells table f.2) entries es := by
  obtain ⟨depth, follows, tree, left, hexpand, hv⟩ := h
  obtain ⟨tag, trees, rfl⟩ := exists_mapping_of_ofTree? hv hm
  obtain ⟨_, _, _, _, _, h⟩ | ⟨_, _, _, _, _, h⟩ | ⟨_, _, _, anchor, _, entries, _, hmeant, h, hentries⟩ :=
    expand_cases hexpand
  · contradiction
  · contradiction
  · cases h
    obtain ⟨fs, hfs, hv⟩ := Option.bind_eq_some_iff.mp hv
    split at hv
    · obtain rfl := Option.some.inj hv
      rw [mapping?_underTag] at hm
      obtain rfl := Option.some.inj hm
      exact ⟨entries, by rw [entries?, hmeant], forall₂_of_expandEntries hentries hfs⟩
    · contradiction

theorem step?_member (name : String) : ∀ v : Value, v.step? (.member name) = v.mapping?.bind fun es =>
    (es.reverse.find? fun e => Yaml.keyText? e.1 = some name).map Prod.snd
  | .tagged _ v => step?_member name v
  | .null | .bool _ | .number _ | .string _ | .sequence _ | .mapping _ => rfl

theorem exists_member?_of_tells (h : node.Tells table v) (hw : v.step? (.member name) = some w) :
    ∃ part, node.member? table name = some part ∧ part.Tells table w := by
  rw [step?_member] at hw
  obtain ⟨es, hes, hw⟩ := Option.bind_eq_some_iff.mp hw
  obtain ⟨f, hf, rfl⟩ := Option.map_eq_some_iff.mp hw
  obtain ⟨entries, hentries, hall⟩ := exists_entries?_of_tells h hes
  obtain ⟨e, he, -, htells⟩ := exists_find?_of_forall₂ (p := fun e => e.1.keyText? table = some name)
    (List.forall₂_reverse_iff.mpr hall) (fun e f h => by rw [keyText?_of_tells h.1]) hf
  exact ⟨e.2, by rw [member?, hentries, Option.bind_some, he, Option.map_some], htells⟩

/-- **Names lead to what tells the value that they lead to.** -/
theorem exists_walk?_of_tells (h : node.Tells table v) (hw : v.at? (names.map .member) = some w) :
    ∃ part, node.walk? table names = some part ∧ part.Tells table w := by
  induction names generalizing node v with
  | nil =>
      obtain rfl := Option.some.inj hw
      exact ⟨node, rfl, h⟩
  | cons name names ih =>
      obtain ⟨x, hx, hw⟩ := Option.bind_eq_some_iff.mp hw
      obtain ⟨next, hnext, hx⟩ := exists_member?_of_tells h hx
      obtain ⟨part, hpart, hw⟩ := ih hx hw
      exact ⟨part, by rw [walk?, hnext, Option.bind_some, hpart], hw⟩

/-! ## Texts -/

/-- The document of a text, with its anchors numbered. -/
def documentOf? (text : String) : Option (Node Nat) :=
  ((tokens? text.toList).bind document?).bind fun node => (node.number []).map Prod.fst

/-- Whether a text lists names, in this order: they are the keys of the mapping in its document that a place leads
to, and the entries of the mapping stand in the text one behind the other. -/
def Lists (text : String) (place names : List String) : Prop :=
  ∃ doc part entries, documentOf? text = some doc ∧ InOrder text.toList doc.atoms
    ∧ doc.walk? doc.anchored place = some part ∧ part.entries? doc.anchored = some entries
    ∧ atomsOfEntries entries <:+: doc.atoms
    ∧ entries.map (fun e => e.1.keyText? doc.anchored) = names.map some

/-- The atoms of a document stand in the text in order. -/
theorem inOrder_of_documentOf? {text : String} (h : documentOf? text = some doc) :
    InOrder text.toList doc.atoms := by
  obtain ⟨node, hnode, h⟩ := Option.bind_eq_some_iff.mp h
  obtain ⟨ts, hts, hnode⟩ := Option.bind_eq_some_iff.mp hnode
  obtain ⟨⟨numbered, after⟩, hnumber, rfl⟩ := Option.map_eq_some_iff.mp h
  rw [atoms_of_number hnumber, atoms_of_document? hnode]
  exact inOrder_of_tokens? hts

/-- What is read from a text is told by its document. -/
theorem exists_documentOf?_of_parse? {text : String} (h : parse? text = some v) :
    ∃ doc, documentOf? text = some doc ∧ doc.Tells doc.anchored v := by
  obtain ⟨tree, htree, hv⟩ := Option.bind_eq_some_iff.mp h
  obtain ⟨ts, hts, htree⟩ := Option.bind_eq_some_iff.mp htree
  obtain ⟨node, hnode, htree⟩ := Option.bind_eq_some_iff.mp htree
  obtain ⟨⟨doc, after⟩, hnumber, htree⟩ := Option.bind_eq_some_iff.mp htree
  obtain ⟨⟨tree, left⟩, hexpand, htree⟩ := Option.bind_eq_some_iff.mp htree
  cases htree
  refine ⟨doc, ?_, maxDepth, _, tree, left, hexpand, hv⟩
  rw [documentOf?, hts, Option.bind_some, hnode, Option.bind_some, hnumber, Option.map_some]

theorem at?_members (j : Json) (names : List String) : j.at? (names.map .member) = j.walk? names := by
  induction names generalizing j with
  | nil => rfl
  | cons name names ih =>
      have hstep : j.step? (.member name) = j.member? name := by cases j <;> rfl
      simp only [List.map_cons, Json.at?, Json.walk?, hstep, ih]

/-- **The names of an object that is read are listed in the text**, and each stands where it first came. -/
theorem exists_lists_of_read_yaml {text : String} {vars : Variables} {ms : Members Json}
    (h : Format.read .yaml text = .ok vars) (hms : vars.toJson.walk? place = some (.object ms)) :
    ∃ names, Lists text place names ∧ Members.keys ms = names.eraseDups := by
  obtain ⟨v, hv, hjson⟩ := exists_parse?_of_read_yaml h
  obtain ⟨w, hw, hwjson⟩ := exists_at?_of_toJson hjson ((at?_members _ place).trans hms)
  obtain ⟨es, names, hes, htexts, hkeys, -⟩ := exists_names_of_toJson hwjson
  obtain ⟨doc, hdoc, htells⟩ := exists_documentOf?_of_parse? hv
  obtain ⟨part, hpart, htold⟩ := exists_walk?_of_tells htells hw
  obtain ⟨entries, hentries, hall⟩ := exists_entries?_of_tells htold hes
  have hinfix := isInfix_of_entries? (isInfix_of_walk? (List.infix_refl doc.atoms) hpart) hentries
  refine ⟨names, ⟨doc, part, entries, hdoc, inOrder_of_documentOf? hdoc, hpart, hentries, hinfix, ?_⟩, hkeys⟩
  have hsame : List.Forall₂ (· = ·) (entries.map fun e => e.1.keyText? doc.anchored)
      (es.map fun e => Yaml.keyText? e.1) := by
    rw [List.forall₂_map_left_iff, List.forall₂_map_right_iff]
    exact hall.imp fun e f h => keyText?_of_tells h.1
  rw [← htexts]
  exact List.forall₂_eq_eq_eq ▸ hsame

end Stencil.Yaml
