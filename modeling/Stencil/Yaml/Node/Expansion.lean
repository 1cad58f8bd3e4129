import Stencil.Members
import Stencil.Yaml.Node

/-!
# Replacing aliases

Anchors are numbered in the order of the document, and each alias is given the number its name had at
that place; then every alias is replaced by the node of its number. A name that is anchored again
takes the number of names there are, so that a later anchor can take the same number; the last node
of a number is the one it means.

Replacing is limited twice: collections nest to a fixed depth, aliases included, and a document of
`n` events follows at most `100 · n` aliases. A node that contains itself meets the first limit.
-/

namespace Stencil.Yaml

/-! ## Numbering -/

/-- The numbers that names have at a place of a document. -/
abbrev Names := Members Nat

/-- Gives an anchored node its number. -/
def Names.define (names : Names) : Option String → Option Nat × Names
  | none => (none, names)
  | some name => (some names.length, Members.insert names name names.length)

mutual

/-- Numbers the anchors of a node; none if an alias has no anchor before it. -/
def Node.number (names : Names) : Node String → Option (Node Nat × Names)
  | .scalar anchor tag plain text =>
      let (anchor, names) := names.define anchor
      some (.scalar anchor tag plain text, names)
  | .sequence anchor tag items =>
      let (anchor, names) := names.define anchor
      (numberItems names items).map fun (items, names) => (.sequence anchor tag items, names)
  | .mapping anchor tag entries =>
      let (anchor, names) := names.define anchor
      (numberEntries names entries).map fun (entries, names) =>
        (.mapping anchor tag entries, names)
  | .alias name => (Members.get? names name).map fun n => (.alias n, names)

def numberItems (names : Names) : List (Node String) → Option (List (Node Nat) × Names)
  | [] => some ([], names)
  | v :: vs => do
      let (v, names) ← v.number names
      let (vs, names) ← numberItems names vs
      some (v :: vs, names)

def numberEntries (names : Names) :
    List (Node String × Node String) → Option (List (Node Nat × Node Nat) × Names)
  | [] => some ([], names)
  | (k, v) :: es => do
      let (k, names) ← k.number names
      let (v, names) ← v.number names
      let (es, names) ← numberEntries names es
      some ((k, v) :: es, names)

end

/-! ## Anchored nodes -/

/-- A node with its number, if it has one. -/
def anchorOf (anchor : Option Nat) (node : Node Nat) : List (Nat × Node Nat) :=
  match anchor with
  | none => []
  | some n => [(n, node)]

mutual

/-- The anchored nodes in a node, in the order in which they start. -/
def Node.anchored : Node Nat → List (Nat × Node Nat)
  | .scalar anchor tag plain text => anchorOf anchor (.scalar anchor tag plain text)
  | .sequence anchor tag items =>
      anchorOf anchor (.sequence anchor tag items) ++ anchoredItems items
  | .mapping anchor tag entries =>
      anchorOf anchor (.mapping anchor tag entries) ++ anchoredEntries entries
  | .alias _ => []

def anchoredItems : List (Node Nat) → List (Nat × Node Nat)
  | [] => []
  | v :: vs => v.anchored ++ anchoredItems vs

def anchoredEntries : List (Node Nat × Node Nat) → List (Nat × Node Nat)
  | [] => []
  | (k, v) :: es => k.anchored ++ v.anchored ++ anchoredEntries es

end

mutual

/-- How many events a node consists of: a collection has one at each end. -/
def Node.events : Node Nat → Nat
  | .scalar .. | .alias _ => 1
  | .sequence _ _ items => 2 + eventsOfItems items
  | .mapping _ _ entries => 2 + eventsOfEntries entries

def eventsOfItems : List (Node Nat) → Nat
  | [] => 0
  | v :: vs => v.events + eventsOfItems vs

def eventsOfEntries : List (Node Nat × Node Nat) → Nat
  | [] => 0
  | (k, v) :: es => k.events + v.events + eventsOfEntries es

end

/-! ## Replacing -/

/-- The node that a number means. -/
def meaning? (table : List (Nat × Node Nat)) (n : Nat) : Option (Node Nat) :=
  (table.reverse.find? (·.1 == n)).map Prod.snd

/-- A node that is no alias: the node itself, or what it refers to. The number counts how many
aliases may still be followed. -/
def follow? (table : List (Nat × Node Nat)) (follows : Nat) (node : Node Nat) :
    Option (Node Nat × Nat) :=
  match node with
  | .alias n =>
      match follows with
      | 0 => none
      | follows + 1 => (meaning? table n).map fun node => (node, follows)
  | _ => some (node, follows)

/-- Replaces aliases by means of a count that is handed on. -/
abbrev Expander := Node Nat → Nat → Option (Tree × Nat)

def expandItems (item : Expander) : List (Node Nat) → Nat → Option (List Tree × Nat)
  | [], follows => some ([], follows)
  | v :: vs, follows => do
      let (v, follows) ← item v follows
      let (vs, follows) ← expandItems item vs follows
      some (v :: vs, follows)

def expandEntries (item : Expander) :
    List (Node Nat × Node Nat) → Nat → Option (List (Tree × Tree) × Nat)
  | [], follows => some ([], follows)
  | (k, v) :: es, follows => do
      let (k, follows) ← item k follows
      let (v, follows) ← item v follows
      let (es, follows) ← expandEntries item es follows
      some ((k, v) :: es, follows)

/-- The tree of a node in which collections are nested at most `depth` levels deep. -/
def expand (table : List (Nat × Node Nat)) : Nat → Expander
  | 0, node, follows => do
      let (node, follows) ← follow? table follows node
      match node with
      | .scalar _ tag plain text => some (.scalar tag plain text, follows)
      | _ => none
  | d + 1, node, follows => do
      let (node, follows) ← follow? table follows node
      match node with
      | .scalar _ tag plain text => some (.scalar tag plain text, follows)
      | .sequence _ tag items =>
          (expandItems (expand table d) items follows).map fun (items, follows) =>
            (.sequence tag items, follows)
      | .mapping _ tag entries =>
          (expandEntries (expand table d) entries follows).map fun (entries, follows) =>
            (.mapping tag entries, follows)
      | .alias _ => none

/-- The tree of a document, with collections nested at most `depth` levels deep. -/
def Node.tree? (depth : Nat) (node : Node String) : Option Tree := do
  let (node, _) ← node.number []
  let (tree, _) ← expand node.anchored depth node (100 * node.events)
  some tree

end Stencil.Yaml
