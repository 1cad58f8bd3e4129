import Stencil.Yaml.Tree

/-!
# Nodes without anchors

A node in which nothing is anchored has no aliases either, and it is its own tree: numbering and replacing leave
it as it is, as long as its collections do not nest too deep.

Main statement: `tree?_node`.
-/

namespace Stencil.Yaml

variable {α : Type}

mutual

/-- A tree, as a node without anchors. -/
def Tree.node : Tree → Node α
  | .scalar tag plain text => .scalar none tag plain text
  | .sequence tag items => .sequence none tag (nodesOfItems items)
  | .mapping tag entries => .mapping none tag (nodesOfEntries entries)

/-- Trees, as nodes without anchors. -/
def nodesOfItems : List Tree → List (Node α)
  | [] => []
  | t :: ts => t.node :: nodesOfItems ts

/-- Entries, as entries without anchors. -/
def nodesOfEntries : List (Tree × Tree) → List (Node α × Node α)
  | [] => []
  | (k, v) :: es => (k.node, v.node) :: nodesOfEntries es

end

/-! ## Numbering -/

mutual

theorem number_node (names : Names) : ∀ t : Tree, (t.node : Node String).number names = some (t.node, names)
  | .scalar tag plain text => rfl
  | .sequence tag items => by simp [Tree.node, Node.number, Names.define, numberItems_nodes names items]
  | .mapping tag entries => by simp [Tree.node, Node.number, Names.define, numberEntries_nodes names entries]

theorem numberItems_nodes (names : Names) :
    ∀ ts : List Tree, numberItems names (nodesOfItems ts) = some (nodesOfItems ts, names)
  | [] => rfl
  | t :: ts => by simp [nodesOfItems, numberItems, number_node names t, numberItems_nodes names ts]

theorem numberEntries_nodes (names : Names) :
    ∀ es : List (Tree × Tree), numberEntries names (nodesOfEntries es) = some (nodesOfEntries es, names)
  | [] => rfl
  | (k, v) :: es => by
      simp [nodesOfEntries, numberEntries, number_node names k, number_node names v,
        numberEntries_nodes names es]

end

/-! ## Replacing -/

/-- Whether the collections of a tree nest at most some levels deep. -/
def Tree.Within : Nat → Tree → Prop
  | _, .scalar .. => True
  | 0, _ => False
  | d + 1, .sequence _ items => ∀ t ∈ items, t.Within d
  | d + 1, .mapping _ entries => ∀ e ∈ entries, e.1.Within d ∧ e.2.Within d

section Expand

variable {item : Expander} (follows : Nat)

theorem expandItems_nodes {ts : List Tree} (h : ∀ t ∈ ts, item t.node follows = some (t, follows)) :
    expandItems item (nodesOfItems ts) follows = some (ts, follows) := by
  induction ts with
  | nil => rfl
  | cons t ts ih =>
      obtain ⟨ht, hts⟩ := List.forall_mem_cons.mp h
      simp [nodesOfItems, expandItems, ht, ih hts]

theorem expandEntries_nodes {es : List (Tree × Tree)}
    (h : ∀ e ∈ es, item e.1.node follows = some (e.1, follows) ∧ item e.2.node follows = some (e.2, follows)) :
    expandEntries item (nodesOfEntries es) follows = some (es, follows) := by
  induction es with
  | nil => rfl
  | cons e es ih =>
      obtain ⟨⟨hk, hv⟩, hes⟩ := List.forall_mem_cons.mp h
      simp [nodesOfEntries, expandEntries, hk, hv, ih hes]

theorem expand_node (table : List (Nat × Node Nat)) {depth : Nat} {t : Tree} (h : t.Within depth) :
    expand table depth t.node follows = some (t, follows) := by
  induction depth generalizing t with
  | zero =>
      cases t with
      | scalar => rfl
      | sequence | mapping => exact h.elim
  | succ depth ih =>
      cases t with
      | scalar => rfl
      | sequence tag items =>
          have hitems := expandItems_nodes follows fun t ht => ih (h t ht)
          simp [Tree.node, expand, follow?, hitems]
      | mapping tag entries =>
          have hentries := expandEntries_nodes follows fun e he => ⟨ih (h e he).1, ih (h e he).2⟩
          simp [Tree.node, expand, follow?, hentries]

end Expand

/-- **A node without anchors is its own tree.** -/
theorem tree?_node {depth : Nat} {t : Tree} (h : t.Within depth) :
    (t.node : Node String).tree? depth = some t := by
  simp [Node.tree?, number_node, expand_node _ _ h]

end Stencil.Yaml
