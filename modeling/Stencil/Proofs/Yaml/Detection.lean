import Mathlib.Data.List.Nodup
import Stencil.Proofs.KeyValue.Detection
import Stencil.Proofs.Members
import Stencil.Proofs.Yaml.BlockMapping
import Stencil.Proofs.Yaml.Unanchored
import Stencil.Proofs.Yaml.Word

/-!
# How block mappings are detected

A chain comes to YAML after JSON, for which a block mapping would be a word with something behind it. As YAML it is
a mapping, whose keys are told by their text and whose values are words.

Main statement: `resolve_blockDocument`.
-/

namespace Stencil.Yaml

/-! ## Nodes -/

section Node

variable {handles : Handles} {depth : Nat} {indentless : Bool} {ts : List Token}

theorem node?_scalar (handles : Handles) (depth : Nat) (indentless : Bool) (plain : Bool) (text : String)
    (ts : List Token) :
    node? handles depth indentless (.scalar plain text :: ts) = some (.scalar none none plain text, ts) := by
  cases depth <;> simp [node?, properties?, content?, startsCollection, startsWith]

/-- A token that opens a collection is the start of a node. -/
theorem node?_of_opens {t : Token} (ht : t ∈ [.blockSequence, .blockMapping, .flowSequence, .flowMapping]) :
    node? handles (depth + 1) indentless (t :: ts)
      = collection? (node? handles depth) ⟨none, none⟩ indentless (t :: ts) := by
  simp only [List.mem_cons, List.not_mem_nil, or_false] at ht
  rcases ht with rfl | rfl | rfl | rfl <;> rfl

theorem document?_of_node? {t : Token} {node : Node String} (ht : isBetweenDocuments t = false)
    (h : node? [] maxDepth false (t :: ts) = some (node, [])) : document? (t :: ts) = some node := by
  simp [document?, firstNode?, ht, h]

end Node

def blockTree (es : List (List Char × List Char)) : Tree :=
  .mapping none (es.map fun e => (.scalar none true (String.ofList e.1), .scalar none true (String.ofList e.2)))

variable {es : List (List Char × List Char)} {tail : List Char}

theorem blockEntries_entryTokens (handles : Handles) (depth : Nat) (rest : List Token) {n : Nat}
    (hn : es.length < n) :
    blockEntries (node? handles depth) n (es.flatMap entryTokens ++ .blockEnd :: rest)
      = some (nodesOfEntries (es.map fun e =>
          (.scalar none true (String.ofList e.1), .scalar none true (String.ofList e.2))), rest) := by
  induction es generalizing n with
  | nil =>
      obtain ⟨n, rfl⟩ := Nat.exists_eq_succ_of_ne_zero (Nat.ne_of_gt hn)
      rfl
  | cons e es ih =>
      obtain ⟨n, rfl⟩ := Nat.exists_eq_succ_of_ne_zero (Nat.ne_of_gt (Nat.lt_of_le_of_lt (Nat.zero_le _) hn))
      have ih := ih (n := n) (by simpa using hn)
      simp [entryTokens, blockEntries, nodeUnless, startsWith, blockValue, node?_scalar, ih, nodesOfEntries, Tree.node]

theorem document?_blockDocument (es : List (List Char × List Char)) :
    document? (.blockMapping :: (es.flatMap entryTokens ++ [.blockEnd])) = some (blockTree es).node := by
  refine document?_of_node? rfl ?_
  have hlength : es.length < (es.flatMap entryTokens ++ [Token.blockEnd]).length := by
    have hentries : (es.flatMap entryTokens).length = es.length * 4 := by
      simp [List.length_flatMap, entryTokens, List.map_const']
    rw [List.length_append, hentries, List.length_singleton]
    omega
  rw [maxDepth, node?_of_opens (by simp)]
  simp only [collection?, blockEntries_entryTokens [] 127 [] hlength]
  rfl

/-! ## Values -/

/-- The entries of a block mapping, as values. -/
def blockValues (es : List (List Char × List Char)) : List (Value × Value) :=
  es.map fun e => (wordValue (String.ofList e.1), wordValue (String.ofList e.2))

def blockMembers (es : List (List Char × List Char)) : Members Json :=
  es.map fun e => (String.ofList e.1, wordJson (String.ofList e.2))

theorem startsWord_of_isName {k : List Char} (h : isName k = true) : StartsWord k := by
  obtain ⟨c, more, rfl, hc, -⟩ := exists_of_isName h
  exact ⟨c, more, rfl, by simpa [isNameHead] using hc⟩

theorem startsWord_of_isPhrase {v : List Char} (h : isPhrase v = true) : StartsWord v := by
  obtain ⟨c, more, rfl, hc, -⟩ := exists_of_isPhrase h
  exact ⟨c, more, rfl, .inl hc⟩

theorem valuesOfEntries?_blockTree (h : ∀ e ∈ es, IsBlockEntry e) :
    valuesOfEntries? (es.map fun e =>
        (.scalar none true (String.ofList e.1), .scalar none true (String.ofList e.2)))
      = some (blockValues es) := by
  induction es with
  | nil => rfl
  | cons e es ih =>
      obtain ⟨he, hes⟩ := List.forall_mem_cons.mp h
      have hk := plainScalar?_of_startsWord (startsWord_of_isName he.name)
      have hv := plainScalar?_of_startsWord (startsWord_of_isPhrase he.phrase)
      simp [valuesOfEntries?, Value.ofTree?, scalar?, untagged?, hk, hv, ih hes, blockValues]

theorem nodup_names (hd : (es.map Prod.fst).Nodup) : (es.map fun e => String.ofList e.1).Nodup := by
  have hnames : (es.map fun e => String.ofList e.1) = (es.map Prod.fst).map String.ofList := by simp
  rw [hnames]
  exact List.Nodup.map (fun _ _ h => String.ofList_injective h) hd

/-- **A block mapping is read as the mapping of its words.** -/
theorem parse?_blockDocument (hne : es ≠ []) (h : ∀ e ∈ es, IsBlockEntry e) (hd : (es.map Prod.fst).Nodup)
    (ht : tail = [] ∨ tail = ['\n']) {text : String} (htext : text.toList = blockDocument es ++ tail) :
    parse? text = some (.mapping (blockValues es)) := by
  have hwithin : (blockTree es).Within maxDepth := by
    rintro e he
    obtain ⟨f, -, rfl⟩ := List.mem_map.mp he
    exact ⟨trivial, trivial⟩
  have htree : Tree.ofText? text.toList = some (blockTree es) := by
    simp [Tree.ofText?, htext, tokens?_blockDocument hne h ht, document?_blockDocument, tree?_node hwithin]
  have hdistinct : distinctKeys (blockValues es) = true := distinctKeys_wordValue (nodup_names hd) _
  simp [parse?, htree, blockTree, Value.ofTree?, valuesOfEntries?_blockTree h, hdistinct, underTag]

theorem jsonMembers_blockValues (es : List (List Char × List Char)) :
    jsonMembers (blockValues es) = .ok (blockMembers es) := by
  induction es with
  | nil => rfl
  | cons e es ih =>
      have ih : jsonMembers (List.map _ es) = _ := ih
      simp only [blockValues, List.map_cons, jsonMembers, keyText?_wordValue, toJson_wordValue, ih]
      rfl

/-! ## The text -/

theorem keyHead_of_isNameHead {c : Char} (h : isNameHead c = true) : KeyValue.KeyHead c := by
  simp only [isNameHead, Bool.or_eq_true, beq_iff_eq] at h
  rcases h with h | rfl
  · have hlower : c.isLower = (decide (c.val ≥ 97) && decide (c.val ≤ 122)) := rfl
    simp only [hlower, Bool.and_eq_true, decide_eq_true_eq] at h
    exact .inr (.inl h)
  · exact .inr (.inr rfl)

/-- **Block mappings are detected as such**, and read as they are written. -/
theorem resolve_blockDocument (hne : es ≠ []) (h : ∀ e ∈ es, IsBlockEntry e) (hd : (es.map Prod.fst).Nodup)
    {text : String} (ht : text.toList = blockDocument es ∨ text.toList = blockDocument es ++ ['\n']) :
    Format.Rejects .json text
      ∧ ∃ vars, Chain.standard.resolve text = .ok ⟨vars, .yaml⟩
        ∧ vars.members = es.map fun e => (String.ofList e.1, wordJson (String.ofList e.2)) := by
  have htail : ∃ tail, (tail = [] ∨ tail = ['\n']) ∧ text.toList = blockDocument es ++ tail := by
    rcases ht with ht | ht
    · exact ⟨[], .inl rfl, by rw [ht, List.append_nil]⟩
    · exact ⟨['\n'], .inr rfl, ht⟩
  obtain ⟨tail, htail, ht⟩ := htail
  obtain ⟨c, cs, hcs, hc, hcolon⟩ := exists_blockDocument hne h tail
  have hjson : Format.Rejects .json text :=
    KeyValue.rejects_json_of_keyHead (ht.trans hcs) (keyHead_of_isNameHead hc) hcolon (by decide) (by decide)
  let vars : Variables := ⟨blockMembers es, by simpa [blockMembers] using hne⟩
  have hmembers : Format.members .yaml text = .ok vars.members := by
    have hdistinct : (Members.keys (blockMembers es)).Nodup := by
      simpa [Members.keys, blockMembers, Function.comp_def] using nodup_names hd
    simp [Format.members, Format.yamlMembers, parse?_blockDocument hne h hd htail ht, Format.yamlValueMembers,
      Value.mapping?, jsonMembers_blockValues, Members.ofEntries_of_nodup hdistinct, vars]
  have hblank : ¬ Text.AllBlank text.toList := fun hb => by
    have hsolid := hb ':' (ht.trans hcs ▸ List.mem_cons_of_mem c hcolon)
    contradiction
  have hread := Format.read_of_members hblank hmembers
  refine ⟨hjson, vars, ?_, rfl⟩
  refine Chain.resolve_eq_ok_iff.mpr ⟨[.json], [.keyValue], Chain.formats_standard, ?_, hread⟩
  simpa using hjson

/-- A mapping with words of its own for names and values: two of them mean something else as values, and one looks
like a number that is not finite. -/
def jotted : List (List Char × List Char) :=
  [("name".toList, "ada  lovelace".toList), ("null".toList, "true".toList), ("_x1".toList, "null".toList),
    ("true".toList, "inf".toList)]

theorem resolve_blockDocument_jotted :
    jotted ≠ [] ∧ (∀ e ∈ jotted, IsBlockEntry e) ∧ (jotted.map Prod.fst).Nodup
      ∧ ∃ vars, Chain.standard.resolve "name: ada  lovelace\nnull: true\n_x1: null\ntrue: inf\n" = .ok ⟨vars, .yaml⟩
        ∧ vars.members
          = [("name", .string "ada  lovelace"), ("null", .bool true), ("_x1", .null), ("true", .string "inf")] := by
  have hne : jotted ≠ [] := by decide
  have h : ∀ e ∈ jotted, IsBlockEntry e := by decide
  have hd : (jotted.map Prod.fst).Nodup := by decide
  have ht : "name: ada  lovelace\nnull: true\n_x1: null\ntrue: inf\n".toList = blockDocument jotted ++ ['\n'] := by
    decide
  obtain ⟨-, vars, hr, hm⟩ := resolve_blockDocument hne h hd (.inr ht)
  exact ⟨hne, h, hd, vars, hr, hm⟩

end Stencil.Yaml
