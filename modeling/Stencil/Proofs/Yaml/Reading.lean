import Stencil.Yaml.Node.Reader

/-!
# What is read from tokens

The readers of nodes, items and entries take tokens from the front of a list. `Reads` says all that they can take:
scalars and aliases, which become nodes; brackets, from the opening one to the closing one; and tokens that become
nothing by themselves, such as the ends of blocks. Where a node is missing nothing is taken. The relation forgets
which of these may stand where, so that a fact about all that is read has one case for each thing that is taken.

In a document every bracket that is opened is closed. A missing key between square brackets takes the token
with it that is found in its place, which may be a closing bracket, so what is read may close more than it
opens; it never opens more than it closes (`Falls`).

Main statements: `exists_reads_of_document?` and `brackets_of_document?`.
-/

namespace Stencil.Yaml

/-- What is read from tokens: a node, items or entries. -/
inductive Part where
  | node (v : Node String)
  | items (vs : List (Node String))
  | entries (es : List (Node String × Node String))

/-- Whether a token becomes nothing by itself: it is no scalar and no alias, and it opens no brackets. -/
def Token.isSign : Token → Bool
  | .scalar .. | .alias _ | .flowSequence | .flowMapping => false
  | _ => true

/-- Whether a part may be read from the front of some tokens, up to a rest of them. -/
inductive Reads : List Token → Part → List Token → Prop
  | sign {t : Token} {ts rest : List Token} {p : Part} (ht : t.isSign = true) (h : Reads ts p rest) :
      Reads (t :: ts) p rest
  | missing (anchor tag : Option String) (ts : List Token) : Reads ts (.node (.scalar anchor tag true "")) ts
  | scalar (anchor tag : Option String) (plain : Bool) (text : String) (ts : List Token) :
      Reads (.scalar plain text :: ts) (.node (.scalar anchor tag plain text)) ts
  | alias (name : String) (ts : List Token) : Reads (.alias name :: ts) (.node (.alias name)) ts
  | sequence (anchor tag : Option String) {ts rest : List Token} {vs : List (Node String)}
      (h : Reads ts (.items vs) rest) : Reads ts (.node (.sequence anchor tag vs)) rest
  | mapping (anchor tag : Option String) {ts rest : List Token} {es : List (Node String × Node String)}
      (h : Reads ts (.entries es) rest) : Reads ts (.node (.mapping anchor tag es)) rest
  | flowSequence (anchor tag : Option String) {ts rest : List Token} {vs : List (Node String)}
      (h : Reads ts (.items vs) (.flowSequenceEnd :: rest)) :
      Reads (.flowSequence :: ts) (.node (.sequence anchor tag vs)) rest
  | flowMapping (anchor tag : Option String) {ts rest : List Token} {es : List (Node String × Node String)}
      (h : Reads ts (.entries es) (.flowMappingEnd :: rest)) :
      Reads (.flowMapping :: ts) (.node (.mapping anchor tag es)) rest
  | noItems (ts : List Token) : Reads ts (.items []) ts
  | item {ts mid rest : List Token} {v : Node String} {vs : List (Node String)} (hv : Reads ts (.node v) mid)
      (hvs : Reads mid (.items vs) rest) : Reads ts (.items (v :: vs)) rest
  | noEntries (ts : List Token) : Reads ts (.entries []) ts
  | entry {ts behind mid rest : List Token} {k v : Node String} {es : List (Node String × Node String)}
      (hk : Reads ts (.node k) behind) (hv : Reads behind (.node v) mid) (hes : Reads mid (.entries es) rest) :
      Reads ts (.entries ((k, v) :: es)) rest

/-- Whether all that a reader reads may be read, as parts of a kind. -/
def ReadsAs {α : Type} (part : α → Part) (read : List Token → Option (α × List Token)) : Prop :=
  ∀ ⦃ts rest : List Token⦄ ⦃a : α⦄, read ts = some (a, rest) → Reads ts (part a) rest

variable {ts mid rest : List Token} {part : Part}

/-! ## Collections -/

/-- The token that is found in place of a missing key becomes nothing. -/
theorem Reads.of_drop (hs : startsWith [.value, .flowEntry, .flowSequenceEnd] ts = true)
    (h : Reads (ts.drop 1) part rest) : Reads ts part rest := by
  cases ts with
  | nil => exact h
  | cons t ts =>
      simp only [startsWith, List.contains_iff_mem, List.mem_cons, List.not_mem_nil, or_false] at hs
      rcases hs with rfl | rfl | rfl <;> exact .sign rfl h

section Collections

variable {item : ItemReader} (hi : ∀ indentless, ReadsAs .node (item indentless))
include hi

theorem readsAs_nodeUnless (indentless : Bool) (ends : List Token) :
    ReadsAs .node (nodeUnless item indentless ends) := by
  intro ts rest v h
  unfold nodeUnless at h
  split at h
  · cases h
    exact .missing none none ts
  · exact hi indentless h

theorem readsAs_blockItems (n : Nat) : ReadsAs .items (blockItems item n) := by
  intro ts rest vs h
  fun_induction blockItems item n ts generalizing vs with
  | case1 => contradiction
  | case2 n ts ih =>
      simp only [bind, Option.bind_eq_some_iff] at h
      obtain ⟨⟨v, mid⟩, hv, ⟨vs, rest⟩, hvs, h⟩ := h
      cases h
      exact .sign rfl (.item (readsAs_nodeUnless hi _ _ hv) (ih _ hvs))
  | case3 ts n =>
      cases h
      exact .sign rfl (.noItems rest)
  | case4 => contradiction

theorem readsAs_indentlessItems (n : Nat) : ReadsAs .items (indentlessItems item n) := by
  intro ts rest vs h
  fun_induction indentlessItems item n ts generalizing vs with
  | case1 => contradiction
  | case2 n ts ih =>
      simp only [bind, Option.bind_eq_some_iff] at h
      obtain ⟨⟨v, mid⟩, hv, ⟨vs, rest⟩, hvs, h⟩ := h
      cases h
      exact .sign rfl (.item (readsAs_nodeUnless hi _ _ hv) (ih _ hvs))
  | case3 =>
      cases h
      exact .noItems rest

theorem readsAs_blockValue : ReadsAs .node (blockValue item) := by
  intro ts rest v h
  unfold blockValue at h
  split at h
  · exact .sign rfl (readsAs_nodeUnless hi _ _ h)
  · cases h
    exact .missing none none ts

theorem readsAs_blockEntries (n : Nat) : ReadsAs .entries (blockEntries item n) := by
  intro ts rest es h
  fun_induction blockEntries item n ts generalizing es with
  | case1 => contradiction
  | case2 n ts ih =>
      simp only [bind, Option.bind_eq_some_iff] at h
      obtain ⟨⟨k, behind⟩, hk, ⟨v, mid⟩, hv, ⟨es, rest⟩, hes, h⟩ := h
      cases h
      exact .sign rfl (.entry (readsAs_nodeUnless hi _ _ hk) (readsAs_blockValue hi hv) (ih _ hes))
  | case3 ts n =>
      cases h
      exact .sign rfl (.noEntries rest)
  | case4 => contradiction

theorem readsAs_flowValue (stop : Token) : ReadsAs .node (flowValue item stop) := by
  intro ts rest v h
  unfold flowValue at h
  split at h
  · exact .sign rfl (readsAs_nodeUnless hi _ _ h)
  · cases h
    exact .missing none none ts

theorem readsAs_singleEntry : ReadsAs .node (singleEntry item) := by
  intro ts rest v h
  unfold singleEntry at h
  split at h
  · rename_i hs
    simp only [bind, Option.bind_some, Option.bind_eq_some_iff] at h
    obtain ⟨⟨v, rest⟩, hv, h⟩ := h
    cases h
    refine .of_drop hs (.mapping none none ?_)
    exact .entry (.missing none none _) (readsAs_flowValue hi _ hv) (.noEntries rest)
  · simp only [bind, Option.bind_eq_some_iff] at h
    obtain ⟨⟨k, mid⟩, hk, ⟨v, rest⟩, hv, h⟩ := h
    cases h
    exact .mapping none none (.entry (hi _ hk) (readsAs_flowValue hi _ hv) (.noEntries rest))

/-- The closing bracket is taken last. -/
theorem reads_of_flowItems {n : Nat} {first : Bool} {vs : List (Node String)}
    (h : flowItems item n first ts = some (vs, rest)) : Reads ts (.items vs) (.flowSequenceEnd :: rest) := by
  fun_induction flowItems item n first ts generalizing vs with
  | case1 => contradiction
  | case2 =>
      cases h
      exact .noItems _
  | case3 n ts ih => exact .sign rfl (ih h)
  | case4 => contradiction
  | case5 n ts ih =>
      simp only [bind, Option.bind_eq_some_iff] at h
      obtain ⟨⟨v, mid⟩, hv, ⟨vs, rest⟩, hvs, h⟩ := h
      cases h
      exact .sign rfl (.item (readsAs_singleEntry hi hv) (ih _ hvs))
  | case6 n ts _ _ ih =>
      simp only [bind, Option.bind_eq_some_iff] at h
      obtain ⟨⟨v, mid⟩, hv, ⟨vs, rest⟩, hvs, h⟩ := h
      cases h
      exact .item (hi _ hv) (ih _ hvs)

theorem reads_of_flowEntries {n : Nat} {first : Bool} {es : List (Node String × Node String)}
    (h : flowEntries item n first ts = some (es, rest)) : Reads ts (.entries es) (.flowMappingEnd :: rest) := by
  fun_induction flowEntries item n first ts generalizing es with
  | case1 => contradiction
  | case2 =>
      cases h
      exact .noEntries _
  | case3 n ts ih => exact .sign rfl (ih h)
  | case4 => contradiction
  | case5 n ts ih =>
      simp only [bind, Option.bind_eq_some_iff] at h
      obtain ⟨⟨k, behind⟩, hk, ⟨v, mid⟩, hv, ⟨es, rest⟩, hes, h⟩ := h
      cases h
      exact .sign rfl (.entry (readsAs_nodeUnless hi _ _ hk) (readsAs_flowValue hi _ hv) (ih _ hes))
  | case6 n ts _ _ ih =>
      simp only [bind, Option.bind_eq_some_iff] at h
      obtain ⟨⟨k, mid⟩, hk, ⟨es, rest⟩, hes, h⟩ := h
      cases h
      exact .entry (hi _ hk) (.missing none none mid) (ih _ hes)

theorem readsAs_collection? (p : Properties) (indentless : Bool) :
    ReadsAs .node (collection? item p indentless) := by
  intro ts rest v h
  -- By the first token. A sequence that is not indented is the only one that has no token of its own for its
  -- start.
  unfold collection? at h
  split at h
  · split at h
    · obtain ⟨⟨vs, r⟩, hvs, h⟩ := Option.map_eq_some_iff.mp h
      cases h
      exact .sequence _ _ (readsAs_indentlessItems hi _ hvs)
    · contradiction
  · obtain ⟨⟨vs, r⟩, hvs, h⟩ := Option.map_eq_some_iff.mp h
    cases h
    exact .sign rfl (.sequence _ _ (readsAs_blockItems hi _ hvs))
  · obtain ⟨⟨es, r⟩, hes, h⟩ := Option.map_eq_some_iff.mp h
    cases h
    exact .sign rfl (.mapping _ _ (readsAs_blockEntries hi _ hes))
  · obtain ⟨⟨vs, r⟩, hvs, h⟩ := Option.map_eq_some_iff.mp h
    cases h
    exact .flowSequence _ _ (reads_of_flowItems hi hvs)
  · obtain ⟨⟨es, r⟩, hes, h⟩ := Option.map_eq_some_iff.mp h
    cases h
    exact .flowMapping _ _ (reads_of_flowEntries hi hes)
  · contradiction

end Collections

/-! ## Nodes and documents -/

variable {handles : Handles}

/-- Properties become nothing by themselves. -/
theorem Reads.of_properties? {p : Properties} (hp : properties? handles ts = some (p, mid))
    (h : Reads mid part rest) : Reads ts part rest := by
  unfold properties? at hp
  split at hp
  · obtain ⟨t, -, hp⟩ := Option.map_eq_some_iff.mp hp
    cases hp
    exact .sign rfl (.sign rfl h)
  · obtain ⟨t, -, hp⟩ := Option.map_eq_some_iff.mp hp
    cases hp
    exact .sign rfl (.sign rfl h)
  · cases hp
    exact .sign rfl h
  · obtain ⟨t, -, hp⟩ := Option.map_eq_some_iff.mp hp
    cases hp
    exact .sign rfl h
  · cases hp
    exact h

theorem reads_of_content? {collection : Option (Node String × List Token)} {p : Properties}
    {indentless : Bool} {v : Node String}
    (hc : ∀ v rest, collection = some (v, rest) → Reads ts (.node v) rest)
    (h : content? collection p indentless ts = some (v, rest)) : Reads ts (.node v) rest := by
  unfold content? at h
  split at h
  · exact hc _ _ h
  · split at h
    · cases h
      exact .scalar _ _ _ _ _
    · split at h
      · cases h
        exact .missing _ _ ts
      · contradiction

theorem readsAs_node? (depth : Nat) (indentless : Bool) : ReadsAs .node (node? handles depth indentless) := by
  -- On how deep nodes may be nested. At the last level there are no collections.
  induction depth generalizing indentless with
  | zero =>
      intro ts rest v h
      unfold node? at h
      split at h
      · cases h
        exact .alias _ _
      · obtain ⟨⟨p, mid⟩, hp, h⟩ := Option.bind_eq_some_iff.mp h
        exact .of_properties? hp (reads_of_content? (by simp) h)
  | succ depth ih =>
      intro ts rest v h
      unfold node? at h
      split at h
      · cases h
        exact .alias _ _
      · obtain ⟨⟨p, mid⟩, hp, h⟩ := Option.bind_eq_some_iff.mp h
        exact .of_properties? hp (reads_of_content? (fun v rest hv => readsAs_collection? ih p indentless hv) h)

/-- Directives become nothing. -/
theorem Reads.of_directives? {versioned : Bool} {found : Handles}
    (hd : directives? versioned handles ts = some (found, mid)) (h : Reads mid part rest) : Reads ts part rest := by
  fun_induction directives? versioned handles ts with
  | case1 versioned handles major minor ts hv ih => exact .sign rfl (ih hd)
  | case2 | case3 => contradiction
  | case4 versioned handles handle expansion ts hh ih => exact .sign rfl (ih hd)
  | case5 =>
      cases hd
      exact h

theorem Reads.of_after? {t : Token} (ht : t.isSign = true) (ha : after? t ts = some mid)
    (h : Reads mid part rest) : Reads ts part rest := by
  cases ts with
  | nil => cases ha
  | cons u ts =>
      simp only [after?] at ha
      split at ha
      · rename_i hu
        cases ha
        exact .sign (hu ▸ ht) h
      · contradiction

theorem readsAs_openedNode? : ReadsAs .node (openedNode? handles) := by
  intro ts rest v h
  unfold openedNode? at h
  split at h
  · cases h
    exact .missing none none []
  · split at h
    · cases h
      exact .missing none none _
    · exact readsAs_node? _ _ h

theorem readsAs_firstNode? : ReadsAs .node firstNode? := by
  intro ts rest v h
  unfold firstNode? at h
  split at h
  · cases h
    exact .missing none none []
  · split at h
    · simp only [bind, Option.bind_eq_some_iff] at h
      obtain ⟨⟨handles, mid⟩, hd, behind, hb, hv⟩ := h
      exact .of_directives? hd (.of_after? rfl hb (readsAs_openedNode? hv))
    · exact readsAs_node? _ _ h

/-- **The node of a document is read from its tokens**, and behind it there are marks of its end alone. -/
theorem exists_reads_of_document? {node : Node String} (h : document? ts = some node) :
    ∃ rest, Reads ts (.node node) rest ∧ ∀ t ∈ rest, t = .documentEnd := by
  unfold document? at h
  split at h
  · contradiction
  · rename_i v rest hv
    split at h
    · rename_i hends
      obtain rfl := Option.some.inj h
      exact ⟨rest, readsAs_firstNode? hv, fun t ht => eq_of_beq (List.all_eq_true.mp hends t ht)⟩
    · contradiction

/-! ## Brackets -/

/-- How many brackets are open behind a token, when `n` are open in front of it. -/
def Token.bracketsAfter (n : Nat) : Token → Nat
  | .flowSequence | .flowMapping => n + 1
  | .flowSequenceEnd | .flowMappingEnd => n - 1
  | _ => n

/-- How many brackets are open behind some tokens, when `n` are open in front of them. -/
def bracketsAfter (n : Nat) (ts : List Token) : Nat := ts.foldl Token.bracketsAfter n

@[simp] theorem bracketsAfter_nil (n : Nat) : bracketsAfter n [] = n := rfl

@[simp] theorem bracketsAfter_cons (n : Nat) (t : Token) (ts : List Token) :
    bracketsAfter n (t :: ts) = bracketsAfter (t.bracketsAfter n) ts := rfl

theorem Token.bracketsAfter_mono (t : Token) {n m : Nat} (h : n ≤ m) :
    t.bracketsAfter n ≤ t.bracketsAfter m := by
  cases t <;> simp only [Token.bracketsAfter] <;> omega

theorem bracketsAfter_mono {n m : Nat} (h : n ≤ m) (ts : List Token) :
    bracketsAfter n ts ≤ bracketsAfter m ts := by
  induction ts generalizing n m with
  | nil => exact h
  | cons t ts ih => exact ih (t.bracketsAfter_mono h)

/-- Whether the tokens of a list up to a later part of it open no more brackets than they close. -/
def Falls (ts rest : List Token) : Prop := ∀ n, bracketsAfter n ts ≤ bracketsAfter n rest

theorem Falls.refl (ts : List Token) : Falls ts ts := fun n => Nat.le_refl (bracketsAfter n ts)

theorem Falls.trans (h : Falls ts mid) (h' : Falls mid rest) : Falls ts rest :=
  fun n => Nat.le_trans (h n) (h' n)

/-- What becomes nothing by itself opens no bracket. -/
theorem Token.bracketsAfter_le_of_isSign {t : Token} (h : t.isSign = true) (n : Nat) : t.bracketsAfter n ≤ n := by
  cases t <;> first | contradiction | exact Nat.le_refl n | exact Nat.sub_le n 1

/-- **What is read opens no more brackets than it closes.** -/
theorem Reads.falls (h : Reads ts part rest) : Falls ts rest := by
  induction h with
  | @sign t ts rest p ht _ ih =>
      exact fun n => Nat.le_trans (bracketsAfter_mono (t.bracketsAfter_le_of_isSign ht n) ts) (ih n)
  | missing | noItems | noEntries => exact .refl _
  | sequence _ _ _ ih | mapping _ _ _ ih => exact ih
  | flowSequence _ _ _ ih | flowMapping _ _ _ ih => exact fun n => ih (n + 1)
  | item _ _ ihv ihvs => exact ihv.trans ihvs
  | entry _ _ _ ihk ihv ihes => exact ihk.trans (ihv.trans ihes)
  | _ => exact fun n => Nat.le_refl _

theorem bracketsAfter_of_documentEnds {n : Nat} (h : ∀ t ∈ ts, t = .documentEnd) : bracketsAfter n ts = n := by
  induction ts with
  | nil => rfl
  | cons t ts ih =>
      obtain ⟨rfl, hts⟩ := List.forall_mem_cons.mp h
      exact ih hts

/-- **In a document every bracket that is opened is closed.** -/
theorem brackets_of_document? {node : Node String} (h : document? ts = some node) :
    bracketsAfter 0 ts = 0 := by
  obtain ⟨rest, hreads, hends⟩ := exists_reads_of_document? h
  have hle := hreads.falls 0
  rwa [bracketsAfter_of_documentEnds hends, Nat.le_zero] at hle

end Stencil.Yaml
