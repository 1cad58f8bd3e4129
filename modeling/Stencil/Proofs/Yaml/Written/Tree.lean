import Stencil.Proofs.Yaml.Detection
import Stencil.Proofs.Yaml.Written.Tokens

/-!
# The tree of a written JSON document

The tokens of an object that is written in JSON are those of one node, unless a name is too far from its colon to
be a key: then a colon is left over behind the name.

Main statement: `ofText?_document`.
-/

namespace Stencil.Yaml

open Stencil.Json (Document Label Piece Written WrittenItems WrittenMembers)

mutual

/-- The tree of a value. -/
def treeOf : Written → Tree
  | .literal w => .scalar none true (String.ofList w.chars)
  | .string q => .scalar none false (String.ofList (folded .empty q))
  | .emptyArray _ => .sequence none []
  | .array items => .sequence none (treesOfItems items)
  | .emptyObject _ => .mapping none []
  | .object members => .mapping none (treesOfMembers members)

def treesOfItems : WrittenItems → List Tree
  | .last _ v _ => [treeOf v]
  | .more _ v _ items => treeOf v :: treesOfItems items

def treesOfMembers : WrittenMembers → List (Tree × Tree)
  | .last label _ v _ => [(.scalar none false (String.ofList label.name.says), treeOf v)]
  | .more label _ v _ members =>
      (.scalar none false (String.ofList label.name.says), treeOf v) :: treesOfMembers members

end

/-- Whether a piece is read as a node: a name has to be near its colon. -/
def isKeyed : Piece → Bool
  | .key l => isNear l
  | _ => true

/-! ## Nodes -/

section Node

variable {item : ItemReader} {ts : List Token} {n : Nat}

def startsNode : Token → Bool
  | .scalar .. | .flowSequence | .flowMapping => true
  | _ => false

theorem head_tokensOf (v : Written) : ∃ t more, tokensOf v = t :: more ∧ startsNode t = true := by
  cases v <;> exact ⟨_, _, rfl, rfl⟩

/-- An item that is no single entry. -/
theorem flowItems_value (v : Written) :
    flowItems item (n + 1) true (tokensOf v ++ ts) = (item false (tokensOf v ++ ts)).bind fun (v, ts) =>
      (flowItems item n false ts).bind fun (vs, ts) => some (v :: vs, ts) := by
  obtain ⟨t, more, ht, hs⟩ := head_tokensOf v
  rw [ht]
  cases t <;> first | contradiction | rfl

/-- The value behind a colon is there. -/
theorem flowValue_value (v : Written) (stop : Token) (hstop : startsNode stop = false) :
    flowValue item stop (.value :: (tokensOf v ++ ts)) = item false (tokensOf v ++ ts) := by
  obtain ⟨t, more, ht, hs⟩ := head_tokensOf v
  have hne : t ≠ stop := by
    rintro rfl
    rw [hs] at hstop
    contradiction
  have hentry : t ≠ .flowEntry := by
    rintro rfl
    contradiction
  simp [ht, flowValue, nodeUnless, startsWith, hne, hentry]

theorem length_tokensOf (v : Written) : 1 ≤ (tokensOf v).length := by
  obtain ⟨t, more, ht, -⟩ := head_tokensOf v
  simp [ht]

/-- The entry of a name with its colon, and the value behind them. -/
theorem flowEntries_label (l : Label) (v : Written) (handles : Handles) (depth n : Nat) :
    flowEntries (node? handles depth) (n + 1) true (tokensOfLabel l ++ (tokensOf v ++ ts))
      = if isNear l then
          (node? handles depth false (tokensOf v ++ ts)).bind fun (v, ts) =>
            (flowEntries (node? handles depth) n false ts).bind fun (es, ts) =>
              some ((.scalar none none false (String.ofList l.name.says), v) :: es, ts)
        else none := by
  unfold tokensOfLabel
  cases isNear l with
  | true =>
      have hvalue : flowValue (node? handles depth) .flowMappingEnd (.value :: (tokensOf v ++ ts))
          = node? handles depth false (tokensOf v ++ ts) := flowValue_value v .flowMappingEnd rfl
      simp [flowEntries, nodeUnless, startsWith, node?_scalar, hvalue, bind]
  | false =>
      cases n <;> simp [flowEntries, node?_scalar]

variable (handles : Handles)

mutual

theorem node?_tokensOf : ∀ (v : Written) {depth : Nat} {indentless : Bool} (rest : List Token), v.levels ≤ depth →
    node? handles depth indentless (tokensOf v ++ rest)
      = if v.pieces.all isKeyed then some ((treeOf v).node, rest) else none
  | .literal w, depth, indentless, rest, h => node?_scalar ..
  | .string q, depth, indentless, rest, h => node?_scalar ..
  | .emptyArray space, 0, indentless, rest, h => absurd h (Nat.not_succ_le_zero 0)
  | .emptyArray space, depth + 1, indentless, rest, h => by
      rw [tokensOf, List.cons_append, node?_of_opens (by simp)]
      rfl
  | .array items, 0, indentless, rest, h => absurd h (Nat.not_succ_le_zero _)
  | .array items, depth + 1, indentless, rest, h => by
      have hitems := flowItems_tokensOfItems items rest (Nat.le_of_succ_le_succ h)
        (n := (tokensOfItems items ++ rest).length) (by simp)
      rw [tokensOf, List.cons_append, node?_of_opens (by simp), Written.pieces]
      simp only [collection?, hitems]
      cases items.pieces.all isKeyed <;> rfl
  | .emptyObject space, 0, indentless, rest, h => absurd h (Nat.not_succ_le_zero 0)
  | .emptyObject space, depth + 1, indentless, rest, h => by
      rw [tokensOf, List.cons_append, node?_of_opens (by simp)]
      rfl
  | .object members, 0, indentless, rest, h => absurd h (Nat.not_succ_le_zero _)
  | .object members, depth + 1, indentless, rest, h => by
      have hentries := flowEntries_tokensOfMembers members rest (Nat.le_of_succ_le_succ h)
        (n := (tokensOfMembers members ++ rest).length) (by simp)
      rw [tokensOf, List.cons_append, node?_of_opens (by simp)]
      simp only [collection?, hentries, Written.pieces, List.all_cons, isKeyed, Bool.true_and]
      cases members.pieces.all isKeyed <;> rfl

theorem flowItems_tokensOfItems : ∀ (items : WrittenItems) {depth n : Nat} (rest : List Token),
    items.levels ≤ depth → (tokensOfItems items).length ≤ n →
    flowItems (node? handles depth) n true (tokensOfItems items ++ rest)
      = if items.pieces.all isKeyed then some (nodesOfItems (treesOfItems items), rest) else none
  | .last lead v behind, depth, n, rest, h, hn => by
      have hv := length_tokensOf v
      simp only [tokensOfItems, List.length_append, List.length_singleton] at hn
      obtain ⟨m, rfl⟩ : ∃ m, n = m + 2 := ⟨n - 2, by omega⟩
      rw [tokensOfItems, List.append_assoc, flowItems_value, node?_tokensOf v _ h, WrittenItems.pieces]
      cases v.pieces.all isKeyed <;> rfl
  | .more lead v behind items, depth, n, rest, h, hn => by
      have hv := length_tokensOf v
      simp only [tokensOfItems, List.length_append, List.length_cons] at hn
      obtain ⟨m, rfl⟩ : ∃ m, n = m + 2 := ⟨n - 2, by omega⟩
      obtain ⟨hlevels, hmore⟩ := Nat.max_le.mp h
      have hitems := flowItems_tokensOfItems items rest hmore (n := m) (by omega)
      rw [tokensOfItems, List.append_assoc, flowItems_value, node?_tokensOf v _ hlevels, WrittenItems.pieces,
        List.all_append]
      cases v.pieces.all isKeyed
      · rfl
      · simp only [if_true, Option.bind_some, List.cons_append, flowItems, hitems, Bool.true_and]
        cases items.pieces.all isKeyed <;> rfl

theorem flowEntries_tokensOfMembers : ∀ (members : WrittenMembers) {depth n : Nat} (rest : List Token),
    members.levels ≤ depth → (tokensOfMembers members).length ≤ n →
    flowEntries (node? handles depth) n true (tokensOfMembers members ++ rest)
      = if members.pieces.all isKeyed then some (nodesOfEntries (treesOfMembers members), rest) else none
  | .last label lead v behind, depth, n, rest, h, hn => by
      have hv := length_tokensOf v
      simp only [tokensOfMembers, List.length_append, List.length_singleton] at hn
      obtain ⟨m, rfl⟩ : ∃ m, n = m + 2 := ⟨n - 2, by omega⟩
      rw [tokensOfMembers, List.append_assoc, List.append_assoc, flowEntries_label, node?_tokensOf v _ h,
        WrittenMembers.pieces]
      simp only [List.all_cons, isKeyed, Bool.true_and]
      cases isNear label <;> cases v.pieces.all isKeyed <;> rfl
  | .more label lead v behind members, depth, n, rest, h, hn => by
      have hv := length_tokensOf v
      simp only [tokensOfMembers, List.length_append, List.length_cons] at hn
      obtain ⟨m, rfl⟩ : ∃ m, n = m + 2 := ⟨n - 2, by omega⟩
      obtain ⟨hlevels, hmore⟩ := Nat.max_le.mp h
      have hentries := flowEntries_tokensOfMembers members rest hmore (n := m) (by omega)
      rw [tokensOfMembers, List.append_assoc, List.append_assoc, flowEntries_label, node?_tokensOf v _ hlevels,
        WrittenMembers.pieces]
      simp only [List.all_cons, List.all_append, isKeyed, Bool.true_and]
      cases isNear label
      · rfl
      cases v.pieces.all isKeyed
      · rfl
      · simp only [if_true, Option.bind_some, List.cons_append, flowEntries, hentries, Bool.true_and]
        cases members.pieces.all isKeyed <;> rfl

end

end Node

/-! ## Trees -/

mutual

theorem within_treeOf : ∀ (v : Written) {depth : Nat}, v.levels ≤ depth → (treeOf v).Within depth
  | .literal w, depth, h | .string q, depth, h => by cases depth <;> trivial
  | .emptyArray space, 0, h | .emptyObject space, 0, h => absurd h (Nat.not_succ_le_zero 0)
  | .emptyArray space, depth + 1, h | .emptyObject space, depth + 1, h => by simp [treeOf, Tree.Within]
  | .array items, 0, h | .object members, 0, h => absurd h (Nat.not_succ_le_zero _)
  | .array items, depth + 1, h => within_treesOfItems items (Nat.le_of_succ_le_succ h)
  | .object members, depth + 1, h => within_treesOfMembers members (Nat.le_of_succ_le_succ h)

theorem within_treesOfItems : ∀ (items : WrittenItems) {depth : Nat}, items.levels ≤ depth →
    ∀ t ∈ treesOfItems items, t.Within depth
  | .last lead v behind, depth, h => by simpa [treesOfItems] using within_treeOf v h
  | .more lead v behind items, depth, h => by
      obtain ⟨hv, hmore⟩ := Nat.max_le.mp h
      exact List.forall_mem_cons.mpr ⟨within_treeOf v hv, within_treesOfItems items hmore⟩

theorem within_treesOfMembers : ∀ (members : WrittenMembers) {depth : Nat}, members.levels ≤ depth →
    ∀ e ∈ treesOfMembers members, e.1.Within depth ∧ e.2.Within depth
  | .last label lead v behind, depth, h => by
      have hname : (Tree.scalar none false (String.ofList label.name.says)).Within depth := by
        cases depth <;> trivial
      simpa [treesOfMembers] using ⟨hname, within_treeOf v h⟩
  | .more label lead v behind members, depth, h => by
      obtain ⟨hv, hmore⟩ := Nat.max_le.mp h
      have hname : (Tree.scalar none false (String.ofList label.name.says)).Within depth := by
        cases depth <;> trivial
      exact List.forall_mem_cons.mpr ⟨⟨hname, within_treeOf v hv⟩, within_treesOfMembers members hmore⟩

end

/-- **A document is one tree** if it can be cut and each of its names is near its colon. -/
theorem ofText?_document {d : Document} (h : d.members.levels < maxDepth) :
    Tree.ofText? d.text
      = if isCut d && d.members.pieces.all isKeyed then some (.mapping none (treesOfMembers d.members)) else none := by
  have hnode : node? [] maxDepth false (.flowMapping :: tokensOfMembers d.members)
      = if d.members.pieces.all isKeyed then some ((treeOf (.object d.members)).node, []) else none := by
    have hobject : node? [] maxDepth false (tokensOf (.object d.members) ++ []) = _ :=
      node?_tokensOf [] (.object d.members) [] h
    rw [List.append_nil] at hobject
    exact hobject
  have hdocument : document? (.flowMapping :: tokensOfMembers d.members)
      = if d.members.pieces.all isKeyed then some (treeOf (.object d.members)).node else none := by
    have hfirst : firstNode? (.flowMapping :: tokensOfMembers d.members)
        = node? [] maxDepth false (.flowMapping :: tokensOfMembers d.members) := rfl
    rw [document?, hfirst, hnode]
    cases d.members.pieces.all isKeyed <;> rfl
  have htree : (treeOf (.object d.members)).node.tree? maxDepth = some (.mapping none (treesOfMembers d.members)) :=
    tree?_node (within_treeOf (.object d.members) h)
  simp only [Tree.ofText?, tokens?_document, bind]
  cases isCut d
  · rfl
  · simp only [if_true, Option.bind_some, hdocument, Bool.true_and]
    cases d.members.pieces.all isKeyed
    · rfl
    · exact htree

end Stencil.Yaml
