import Stencil.Proofs.Template.Parser.Stmt
import Stencil.Proofs.Template.Unmarked

/-!
# Constants are unmarked

No constant of a template that was read is marked. Literals are not, and what becomes of constants before
the template is filled is made by operations that mark nothing.

Main statement: `ofTokens_clear`.
-/

namespace Stencil.Template

/-! ## Results of a list -/

section Results

variable {α β : Type} {Q : β → Prop}

theorem forall_mem_of_mapM {f : α → Option β} {xs : List α} {ys : List β}
    (hf : ∀ x ∈ xs, ∀ y ∈ f x, Q y) (h : xs.mapM f = some ys) : ∀ y ∈ ys, Q y := by
  induction xs generalizing ys with
  | nil =>
      cases h
      exact List.forall_mem_nil Q
  | cons x xs ih =>
      obtain ⟨hx, hxs⟩ := List.forall_mem_cons.mp hf
      rw [List.mapM_cons] at h
      obtain ⟨y, hy, h⟩ := Option.bind_eq_some_iff.mp h
      obtain ⟨rest, hrest, h⟩ := Option.bind_eq_some_iff.mp h
      cases h
      exact List.forall_mem_cons.mpr ⟨hx y hy, ih hxs hrest⟩

theorem forall_mem_of_mapM_ok {f : α → Except Cause β} {xs : List α} {ys : List β}
    (hf : ∀ x ∈ xs, ∀ y, f x = .ok y → Q y) (h : xs.mapM f = .ok ys) : ∀ y ∈ ys, Q y := by
  induction xs generalizing ys with
  | nil =>
      cases h
      exact List.forall_mem_nil Q
  | cons x xs ih =>
      obtain ⟨hx, hxs⟩ := List.forall_mem_cons.mp hf
      rw [List.mapM_cons] at h
      cases hy : f x with
      | error c =>
          rw [hy] at h
          contradiction
      | ok y =>
      cases hrest : xs.mapM f with
      | error c =>
          rw [hy, hrest] at h
          contradiction
      | ok rest =>
          rw [hy, hrest] at h
          cases h
          exact List.forall_mem_cons.mpr ⟨hx y hy, ih hxs hrest⟩

end Results

/-! ## Constants -/

/-- Whether an expression is an unmarked constant, or no constant at all. -/
def Expr.UnmarkedNode : Expr → Prop
  | .constant v _ => v.Unmarked
  | _ => True

/-- Whether all constants in an expression are unmarked. -/
abbrev Expr.Clear (e : Expr) : Prop := e.Every Expr.UnmarkedNode

variable {e : Expr}

theorem clear_constant {v : Value} (h : v.Unmarked) (line : Nat) : (Expr.constant v line).Clear :=
  .intro h (List.forall_mem_nil _)

theorem Expr.Every.constant?_unmarked (h : e.Clear) : UnmarkedAny e.constant? := by
  cases e with
  | constant v line => exact fun w hw => Option.some.inj hw ▸ h.node
  | _ => exact unmarkedAny_none

/-- An operation on constants that mark nothing may become its result, if that is unmarked. -/
theorem known_clear (h : e.Clear) {value : Option (Except Cause Value)}
    (hv : ∀ r ∈ value, UnmarkedResult r) (line : Nat) : (Expr.known e value line).Clear := by
  unfold Expr.known
  split
  · exact clear_constant (hv _ rfl _ rfl) line
  · exact h

theorem endingAt_clear (h : e.Clear) (left : Nat) : (e.endingAt left).Clear := by
  unfold Expr.endingAt
  split
  · exact clear_constant (rooted_unmarked _ _ _ h.node) _
  · exact h

theorem ofItems_clear {items : List Expr} (h : ∀ e ∈ items, e.Clear) (line : Nat) :
    (Expr.ofItems items line).Clear := by
  have hlist : (Expr.list items line).Clear := .intro trivial h
  refine known_clear hlist (fun r hr => ?_) line
  obtain ⟨vs, hvs, rfl⟩ := Option.map_eq_some_iff.mp hr
  have hunmarked : UnmarkedItems vs :=
    unmarkedItems_iff.mpr (forall_mem_of_mapM (fun e he => (h e he).constant?_unmarked) hvs)
  exact unmarkedResult_ok hunmarked

theorem ofEntries_clear {entries : List (Expr × Expr)} (h : ∀ e ∈ entries, e.1.Clear ∧ e.2.Clear)
    (line : Nat) : (Expr.ofEntries entries line).Clear := by
  have hparts : ∀ part ∈ (Expr.map entries line).parts, part.Clear := by
    intro part hp
    obtain ⟨e, he, hp⟩ := List.mem_flatMap.mp hp
    exact List.forall_mem_cons.mpr ⟨(h e he).1, List.forall_mem_singleton.mpr (h e he).2⟩ part hp
  have hentry : ∀ e ∈ entries, ∀ kv ∈ Expr.constantEntry? e, kv.1.Unmarked ∧ kv.2.Unmarked := by
    intro e he kv hkv
    unfold Expr.constantEntry? at hkv
    split at hkv
    · rename_i k v hk hv
      cases hkv
      exact ⟨(h e he).1.constant?_unmarked k hk, (h e he).2.constant?_unmarked v hv⟩
    · contradiction
  have hmap : (Expr.map entries line).Clear := .intro trivial hparts
  refine known_clear hmap (fun r hr => ?_) line
  obtain ⟨es, hes, rfl⟩ := Option.map_eq_some_iff.mp hr
  have hunmarked : UnmarkedEntries es := unmarkedEntries_iff.mpr (forall_mem_of_mapM hentry hes)
  exact unmarkedResult_ok (v := .ofEntries _) (distinctEntries_unmarked hunmarked)

theorem ofNegation_clear (h : e.Clear) (line : Nat) : (Expr.ofNegation e line).Clear := by
  have hnegation : (Expr.negation e line).Clear :=
    .intro trivial (List.forall_mem_singleton.mpr h)
  refine known_clear hnegation (fun r hr => ?_) line
  obtain ⟨v, -, rfl⟩ := Option.map_eq_some_iff.mp hr
  exact unmarkedResult_ok trivial

theorem ofNegative_clear (h : e.Clear) (line : Nat) : (Expr.ofNegative e line).Clear := by
  have hnegative : (Expr.negative e line).Clear :=
    .intro trivial (List.forall_mem_singleton.mpr h)
  refine known_clear hnegative (fun r hr => ?_) line
  obtain ⟨v, -, rfl⟩ := Option.map_eq_some_iff.mp hr
  exact negate_unmarked v

theorem ofBinary_clear {l r : Expr} (hl : l.Clear) (hr : r.Clear) (op : BinaryOp) (line : Nat) :
    (Expr.ofBinary op l r line).Clear := by
  have hbinary : (Expr.binary op l r line).Clear :=
    .intro trivial (List.forall_mem_cons.mpr ⟨hl, List.forall_mem_singleton.mpr hr⟩)
  refine known_clear hbinary (fun result hresult => ?_) line
  split at hresult
  · rename_i a b ha hb
    obtain rfl := Option.some.inj hresult
    exact applyOperator_unmarked op (hl.constant?_unmarked a ha) (hr.constant?_unmarked b hb)
  · contradiction

theorem ofComparison_clear {first : Expr} {others : List (Relation × Expr)} (hf : first.Clear)
    (ho : ∀ o ∈ others, o.2.Clear) (line : Nat) :
    (Expr.ofComparison first others line).Clear := by
  have hcomparison : (Expr.comparison first others line).Clear :=
    .intro trivial (List.forall_mem_cons.mpr ⟨hf, List.forall_mem_map.mpr ho⟩)
  refine known_clear hcomparison (fun result hresult => ?_) line
  split at hresult
  · obtain rfl := Option.some.inj hresult
    exact UnmarkedResult.map fun _ => trivial
  · contradiction

/-- **No constant of an expression that is read is marked**, whatever the words are. -/
instance reads_clear : Reads (fun _ => True) Expr.Clear where
  name _ _ := .intro trivial (List.forall_mem_nil _)
  literal _ h line := clear_constant h line
  absent := .intro trivial (List.forall_mem_nil _)
  captured := .intro trivial (List.forall_mem_nil _)
  endingAt := endingAt_clear
  ofItems := ofItems_clear
  ofEntries := ofEntries_clear
  ofNegation := ofNegation_clear
  ofNegative := ofNegative_clear
  ofBinary := ofBinary_clear
  ofComparison := ofComparison_clear
  choice hc hv ha _ := .intro trivial (by simp [Expr.parts, hc, hv, ha])
  filter h _ ha _ _ := .intro trivial (List.forall_mem_cons.mpr ⟨h, List.forall_mem_map.mpr ha⟩)
  test h _ ha _ _ := .intro trivial (List.forall_mem_cons.mpr ⟨h, List.forall_mem_map.mpr ha⟩)
  call h _ ha _ := .intro trivial (List.forall_mem_cons.mpr ⟨h, List.forall_mem_map.mpr ha⟩)
  attribute_iff {e _ _} :=
    ⟨fun h => h.part e List.mem_cons_self, fun h => .intro trivial (List.forall_mem_singleton.mpr h)⟩
  item h hi _ := .intro trivial (by simp [Expr.parts, h, hi])
  slice h ha hb hc _ := .intro trivial (by simp [Expr.parts, h, ha, hb, hc])
  items h := h.part

/-- **No constant of a template is marked.** -/
theorem ofTokens_clear {ts : Tokens} {body : List Stmt} (h : Stmt.ofTokens ts = .ok body) :
    EveryStmt Expr.Clear body :=
  ofTokens_every (P := fun _ => True) (fun _ _ _ _ => trivial) h

end Stencil.Template
