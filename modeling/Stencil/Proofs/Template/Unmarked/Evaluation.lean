import Stencil.Proofs.Template.Every
import Stencil.Proofs.Template.Unmarked.Filter
import Stencil.Proofs.Template.Unmarked.Literal
import Stencil.Proofs.Template.Unmarked.Store
import Stencil.Template.Evaluation

/-!
# Plain expressions mark nothing

A plain expression calls nothing and applies only plain filters. Where the variables, the constants and
the store are unmarked, it leaves the store unmarked, and so is its value. Operations take their operands
from the pile, so the pile is part of what stays unmarked.

Main statement: `evalExpr_unmarked`.
-/

namespace Stencil.Template

/-! ## Steps -/

namespace Fill

variable {α : Type} {Q : α → Prop} {line : Nat} {v : Value}

/-- Whether a step that succeeds leaves an unmarked store unmarked, and returns only what meets a
condition. -/
abbrev Keeps (step : Fill α) (Q : α → Prop) : Prop := Preserves Store.Unmarked step Q

/-- A step that always succeeds. -/
theorem keeps_ok {f : Store → α × Store} (h : ∀ st, st.Unmarked → Q (f st).1 ∧ (f st).2.Unmarked) :
    Keeps (fun st => .ok (f st)) Q := by
  intro st hst x after hx
  have hok := h st hst
  rw [Except.ok.inj hx] at hok
  exact hok

/-- A step that only looks at the store. -/
theorem keeps_read {f : Store → α} (h : ∀ st, st.Unmarked → Q (f st)) :
    Keeps (fun st => .ok (f st, st)) Q := keeps_ok fun st hst => ⟨h st hst, hst⟩

/-- A step that only changes the store. -/
theorem keeps_change {f : Store → Store} (h : ∀ st, st.Unmarked → (f st).Unmarked) :
    Keeps (fun st => .ok ((), f st)) fun _ => True := keeps_ok fun st hst => ⟨trivial, h st hst⟩

theorem keeps_fault (cause : Cause) : Keeps (fault cause line : Fill α) Q := .fail _

theorem keeps_lift {result : Except Cause α} (h : ∀ x, result = .ok x → Q x) :
    Keeps (lift line result) Q := by
  cases result with
  | ok x => exact .pure (h x rfl)
  | error c => exact keeps_fault c

theorem keeps_view (h : v.Unmarked) : Keeps (view v) Value.Unmarked :=
  keeps_read fun _ hst => Store.view_unmarked hst h

theorem keeps_views {vs : List Value} (h : UnmarkedItems vs) : Keeps (views vs) UnmarkedItems :=
  keeps_read fun _ hst => Store.unmarkedItems_map (fun _ hw => Store.view_unmarked hst hw) h

theorem keeps_faces {vs : List Value} (h : UnmarkedItems vs) : Keeps (faces vs) UnmarkedItems :=
  keeps_read fun _ hst => Store.unmarkedItems_map (fun _ hw => Store.face_unmarked hst hw) h

theorem keeps_truth (v : Value) : Keeps (truth v) fun _ => True := keeps_read fun _ _ => trivial

theorem keeps_itemsOf (h : v.Unmarked) : Keeps (itemsOf line v) fun r => UnmarkedItems r.1 := by
  intro st hst r after hr
  obtain ⟨hsettled, hv⟩ := Store.settle_unmarked hst h
  unfold itemsOf at hr
  generalize st.settle v = settled at hsettled hv hr
  obtain ⟨st', w⟩ := settled
  dsimp only at hsettled hv hr
  split at hr
  · rename_i items hitems
    cases hr
    exact ⟨iterateOr_unmarked (Store.face_unmarked hsettled hv) hitems, hsettled⟩
  · contradiction

theorem keeps_enter {f : Frame} (hf : UnmarkedMembers f.locals) :
    Keeps (enter line f) fun _ => True := by
  intro st hst x after hx
  unfold enter at hx
  split at hx
  · rename_i st' he
    cases hx
    exact ⟨trivial, Store.enter?_unmarked hst hf he⟩
  · contradiction

theorem keeps_leave : Keeps leave fun _ => True := keeps_change fun _ => Store.leave_unmarked

theorem keeps_clear : Keeps clear fun _ => True := keeps_change fun _ => Store.clear_unmarked

theorem keeps_push (h : v.Unmarked) : Keeps (push v) fun _ => True :=
  keeps_change fun _ hst => Store.push_unmarked hst h

/-- **What is taken off the pile is unmarked.** -/
theorem keeps_pop (n : Nat) : Keeps (pop n) UnmarkedItems :=
  keeps_ok fun _ hst => (Store.pop_unmarked hst n).symm

theorem keeps_popPair : Keeps popPair fun r => r.1.Unmarked ∧ r.2.Unmarked := by
  refine (keeps_pop 2).bind fun vs hvs => ?_
  split
  · exact .pure ⟨hvs.1, hvs.2.1⟩
  · exact .pure ⟨trivial, trivial⟩

end Fill

open Fill

/-! ## Arguments -/

namespace Batches

theorem ofItems_unmarked (vs : List Value) (h : UnmarkedItems vs) : (Value.ofItems vs).Unmarked := h

theorem keywordsOf_unmarked {vs : List Value} (h : UnmarkedItems vs) : (keywordsOf vs).Unmarked :=
  distinctEntries_unmarked (pairedEntries_unmarked h)

theorem mergedKeywords_unmarked {vs : List Value} (h : UnmarkedItems vs) :
    UnmarkedResult (mergedKeywords vs) := by
  unfold mergedKeywords
  split
  · rename_i all hall
    have hall' : ∀ es ∈ all, UnmarkedEntries es :=
      forall_mem_of_mapM (fun v hv es hes => entries?_unmarked (unmarkedItems_iff.mp h v hv) hes) hall
    have hflat : UnmarkedEntries all.flatten := by
      refine unmarkedEntries_iff.mpr fun e he => ?_
      obtain ⟨es, hes, he⟩ := List.mem_flatten.mp he
      exact unmarkedEntries_iff.mp (hall' es hes) e he
    exact unmarkedResult_ok (v := .keywords _) (distinctEntries_unmarked hflat)
  · exact unmarkedResult_error _

theorem spread_unmarked {vs ws : List Value} (h : UnmarkedItems vs) (hw : spread vs = .ok ws) :
    UnmarkedItems ws := by
  unfold spread at hw
  cases hall : vs.mapM Value.iterateOr with
  | error c =>
      rw [hall] at hw
      contradiction
  | ok all =>
      rw [hall] at hw
      cases hw
      have hall' : ∀ items ∈ all, UnmarkedItems items :=
        forall_mem_of_mapM_ok
          (fun v hv items hi => iterateOr_unmarked (unmarkedItems_iff.mp h v hv) hi) hall
      refine unmarkedItems_iff.mpr fun w hw => ?_
      obtain ⟨items, hi, hw⟩ := List.mem_flatten.mp hw
      exact unmarkedItems_iff.mp (hall' items hi) w hw

theorem keeps_gather (b : Batches) (size : Nat) {make : List Value → Value}
    (h : ∀ vs, UnmarkedItems vs → (make vs).Unmarked) :
    Keeps (b.gather size make) fun _ => True := by
  unfold gather
  refine .ite (fun _ => .pure trivial) fun _ => (keeps_pop _).bind fun vs hvs => ?_
  exact (keeps_push (h vs hvs)).bind fun _ _ => .pure trivial

theorem keeps_takeKeywords (line : Nat) (b : Batches) :
    Keeps (b.takeKeywords line) Value.Unmarked := by
  unfold takeKeywords
  refine .ite (fun _ => (keeps_pop _).bind fun vs hvs => .pure (keywordsOf_unmarked hvs)) fun _ => ?_
  refine (keeps_gather b 2 fun _ => keywordsOf_unmarked).bind fun n _ => (keeps_pop n).bind ?_
  exact fun vs hvs => (keeps_faces hvs).bind fun ws hws => keeps_lift (mergedKeywords_unmarked hws)

/-- **The arguments that are taken off the pile are unmarked.** -/
theorem keeps_take (line : Nat) (positional : Batches) (keywords : Option Batches) :
    Keeps (positional.take line keywords) UnmarkedItems := by
  unfold take
  extract_lets go
  have hgo (b : Batches) : Keeps (go b) UnmarkedItems := by
    refine .ite (fun _ => keeps_pop _) fun _ => ?_
    refine (keeps_gather b 1 ofItems_unmarked).bind fun n _ => (keeps_pop n).bind fun vs hvs => ?_
    exact (keeps_faces hvs).bind fun ws hws => keeps_lift fun us hus => spread_unmarked hws hus
  have hpure (b : Batches) : Keeps (pure b >>= go) UnmarkedItems := by
    rw [pure_bind]
    exact hgo b
  split
  · refine (keeps_takeKeywords line _).bind fun v hv => (keeps_push hv).bind fun _ _ => ?_
    exact hpure _
  · exact hpure _

end Batches

variable {s : Surroundings} {line : Nat}

theorem keeps_applyFilter {name : String} (hname : name ∈ Filter.plainNames) {args : List Value}
    (h : UnmarkedItems args) : Keeps (applyFilter s line name args) Value.Unmarked := by
  refine (keeps_views h).bind fun args hargs => ?_
  split
  · rename_i result hr
    exact keeps_lift (Filter.apply_unmarked s.mode hname hargs hr)
  · exact keeps_fault _

theorem keeps_performTest (name : String) {args : List Value} (h : UnmarkedItems args) :
    Keeps (performTest line name args) Value.Unmarked := by
  refine (keeps_views h).bind fun args _ => ?_
  split
  · exact .bind (keeps_lift fun _ _ => trivial) fun b _ => .pure trivial
  · exact keeps_fault _

/-! ## Expressions -/

/-- Whether an expression is itself no call and no captured text, and no filter but a plain one. -/
def Expr.PlainNode : Expr → Prop
  | .call .. | .captured => False
  | .filter id .. => id ∈ Filter.plainNames
  | _ => True

/-- Whether an expression is plain, and all of its parts are. -/
abbrev Expr.Plain (e : Expr) : Prop := e.Every Expr.PlainNode

/-- Whether an expression is plain and all constants in it are unmarked. -/
abbrev Expr.Quiet (e : Expr) : Prop := e.Every fun e => e.PlainNode ∧ e.UnmarkedNode

/-- A value that is put on the pile before anything else is done. -/
theorem keeps_pushed {α : Type} {Q : α → Prop} {step : Fill Value} {rest : Fill α}
    (h : Keeps step Value.Unmarked) (hrest : Keeps rest Q) :
    Keeps (do push (← step); rest) Q := h.bind fun _ hv => (keeps_push hv).bind fun _ _ => hrest

mutual

/-- **A quiet expression has an unmarked value.** -/
theorem evalExpr_unmarked (hs : ∀ name, UnmarkedAny (s.vars name)) :
    ∀ e : Expr, e.Quiet → Keeps (evalExpr s e) Value.Unmarked
  | .name id _, _ => by
      rw [evalExpr]
      exact keeps_read fun _ hst => (Store.lookup?_unmarked hs hst id).getD trivial
  | .constant v _, h => by
      rw [evalExpr]
      exact .pure h.node.2
  | .absent, _ => by
      rw [evalExpr]
      exact .pure trivial
  | .captured, h => h.node.1.elim
  | .negation e _, h => by
      rw [evalExpr]
      have he : e.Quiet := h.part e List.mem_cons_self
      exact (evalExpr_unmarked hs e he).bind fun v _ => (keeps_truth v).bind fun _ _ => .pure trivial
  | .negative e _, h => by
      rw [evalExpr]
      have he : e.Quiet := h.part e List.mem_cons_self
      exact (evalExpr_unmarked hs e he).bind fun v _ => keeps_lift (negate_unmarked v)
  | .binary op l r _, h => by
      rw [evalExpr]
      have hl : l.Quiet := h.part l (by simp [Expr.parts])
      have hr : r.Quiet := h.part r (by simp [Expr.parts])
      have hright := evalExpr_unmarked hs r hr
      refine (evalExpr_unmarked hs l hl).bind fun a ha => ?_
      split
      · exact (keeps_truth a).bind fun _ _ => .ite (fun _ => hright) fun _ => .pure ha
      · exact (keeps_truth a).bind fun _ _ => .ite (fun _ => .pure ha) fun _ => hright
      · -- The operands are taken off the pile again, where all values are unmarked.
        refine (keeps_push ha).bind fun _ _ => hright.bind fun b hb => ?_
        refine (keeps_push hb).bind fun _ _ => keeps_popPair.bind fun r hr => ?_
        refine (keeps_view hr.1).bind fun a ha => (keeps_view hr.2).bind fun b hb => ?_
        exact keeps_lift (applyOperator_unmarked op ha hb)
  | .comparison e others _, h => by
      rw [evalExpr]
      obtain ⟨he, hothers⟩ := List.forall_mem_cons.mp h.part
      refine keeps_pushed (evalExpr_unmarked hs e he) ?_
      exact evalRelations_unmarked hs others _ (List.forall_mem_map.mp hothers)
  | .choice c v a _, h => by
      rw [evalExpr]
      have hc : c.Quiet := h.part c (by simp [Expr.parts])
      have hv : v.Quiet := h.part v (by simp [Expr.parts])
      have ha : a.Quiet := h.part a (by simp [Expr.parts])
      refine (evalExpr_unmarked hs c hc).bind fun w _ => (keeps_truth w).bind fun _ _ => ?_
      exact .ite (fun _ => evalExpr_unmarked hs v hv) fun _ => evalExpr_unmarked hs a ha
  | .filter name e args _, h => by
      rw [evalExpr]
      obtain ⟨he, hargs⟩ := List.forall_mem_cons.mp h.part
      have hargs : EveryArg Expr.Quiet args := List.forall_mem_map.mp hargs
      refine keeps_pushed (evalExpr_unmarked hs e he) ?_
      refine (pushPositional_unmarked hs args _ hargs).bind fun positional _ => ?_
      refine (pushKeywords_unmarked hs args _ hargs).bind fun keywords _ => ?_
      -- The subject and the arguments are on the pile, where all values are unmarked, and a quiet filter marks
      -- none.
      exact (Batches.keeps_take _ _ _).bind fun vs hvs => keeps_applyFilter h.node.1 hvs
  | .test name e args _, h => by
      rw [evalExpr]
      obtain ⟨he, hargs⟩ := List.forall_mem_cons.mp h.part
      have hargs : EveryArg Expr.Quiet args := List.forall_mem_map.mp hargs
      refine keeps_pushed (evalExpr_unmarked hs e he) ?_
      refine (pushPositional_unmarked hs args _ hargs).bind fun positional _ => ?_
      refine (pushKeywords_unmarked hs args _ hargs).bind fun keywords _ => ?_
      exact (Batches.keeps_take _ _ _).bind fun vs hvs => keeps_performTest name hvs
  | .attribute e name _, h => by
      rw [evalExpr]
      have he : e.Quiet := h.part e List.mem_cons_self
      refine (evalExpr_unmarked hs e he).bind fun v hv => keeps_read fun _ hst => ?_
      -- Without such a member the value is undefined, which is unmarked too.
      exact (Store.attribute?_unmarked hst hv name).getD trivial
  | .item e i _, h => by
      rw [evalExpr]
      have he : e.Quiet := h.part e (by simp [Expr.parts])
      have hi : i.Quiet := h.part i (by simp [Expr.parts])
      refine keeps_pushed (evalExpr_unmarked hs e he) ?_
      refine keeps_pushed (evalExpr_unmarked hs i hi) ?_
      refine keeps_popPair.bind fun r hr => keeps_read fun st hst => ?_
      exact (Store.item?_unmarked hst hr.1 _).getD trivial
  | .slice e a b c _, h => by
      rw [evalExpr]
      have he : e.Quiet := h.part e (by simp [Expr.parts])
      have ha : a.Quiet := h.part a (by simp [Expr.parts])
      have hb : b.Quiet := h.part b (by simp [Expr.parts])
      have hc : c.Quiet := h.part c (by simp [Expr.parts])
      refine keeps_pushed (evalExpr_unmarked hs e he) ?_
      refine keeps_pushed (evalExpr_unmarked hs a ha) ?_
      refine keeps_pushed (evalExpr_unmarked hs b hb) ?_
      refine keeps_pushed (evalExpr_unmarked hs c hc) ?_
      refine (keeps_pop 4).bind fun vs hvs => ?_
      split
      · exact (keeps_view hvs.1).bind fun v hv => keeps_lift (slice_unmarked hv _ _ _)
      · exact keeps_fault _
  | .call .., h => h.node.1.elim
  | .list items _, h => by
      rw [evalExpr]
      refine (pushItems_unmarked hs items h.part).bind fun _ _ => (keeps_pop _).bind fun vs hvs => ?_
      exact .pure (Batches.ofItems_unmarked vs hvs)
  | .map entries _, h => by
      rw [evalExpr]
      have hentries : ∀ e ∈ entries, e.1.Quiet ∧ e.2.Quiet := fun e he =>
        ⟨h.part e.1 (List.mem_flatMap.mpr ⟨e, he, by simp⟩),
          h.part e.2 (List.mem_flatMap.mpr ⟨e, he, by simp⟩)⟩
      refine (pushEntries_unmarked hs entries hentries).bind fun _ _ => (keeps_pop _).bind ?_
      exact fun vs hvs => .pure (distinctEntries_unmarked (pairedEntries_unmarked hvs))

theorem evalRelations_unmarked (hs : ∀ name, UnmarkedAny (s.vars name)) :
    ∀ (others : List (Relation × Expr)) (line : Nat), (∀ o ∈ others, o.2.Quiet) →
      Keeps (evalRelations s line others) Value.Unmarked
  | [], _, _ => by
      rw [evalRelations]
      exact .pure trivial
  | (_, e) :: others, _, h => by
      rw [evalRelations]
      obtain ⟨he, hothers⟩ := List.forall_mem_cons.mp h
      refine keeps_pushed (evalExpr_unmarked hs e he) ?_
      refine keeps_popPair.bind fun r hr => ?_
      refine (keeps_view hr.1).bind fun a _ => (keeps_view hr.2).bind fun b _ => ?_
      refine .bind (Q := fun _ => True) (keeps_lift fun _ _ => trivial) fun holds _ => ?_
      refine .ite (fun _ => .pure trivial) fun _ => (keeps_push hr.2).bind fun _ _ => ?_
      exact evalRelations_unmarked hs others _ hothers

theorem pushPositional_unmarked (hs : ∀ name, UnmarkedAny (s.vars name)) :
    ∀ (args : List Arg) (b : Batches), EveryArg Expr.Quiet args →
      Keeps (pushPositional s b args) fun _ => True
  | [], _, _ => by
      rw [pushPositional]
      exact .pure trivial
  | .positional e :: args, b, h => by
      rw [pushPositional]
      obtain ⟨he, hargs⟩ := List.forall_mem_cons.mp h
      refine keeps_pushed (evalExpr_unmarked hs e he) ?_
      exact pushPositional_unmarked hs args _ hargs
  | .splat e :: args, b, h => by
      rw [pushPositional]
      obtain ⟨he, hargs⟩ := List.forall_mem_cons.mp h
      refine (Batches.keeps_gather b 1 Batches.ofItems_unmarked).bind fun n _ => ?_
      refine keeps_pushed (evalExpr_unmarked hs e he) ?_
      exact pushPositional_unmarked hs args _ hargs
  | .keyword _ _ :: args, b, h | .keywords _ :: args, b, h => by
      rw [pushPositional]
      exact pushPositional_unmarked hs args _ (List.forall_mem_cons.mp h).2

theorem pushKeywords_unmarked (hs : ∀ name, UnmarkedAny (s.vars name)) :
    ∀ (args : List Arg) (b : Batches), EveryArg Expr.Quiet args →
      Keeps (pushKeywords s b args) fun _ => True
  | [], _, _ => by
      rw [pushKeywords]
      exact .pure trivial
  | .keyword name e :: args, b, h => by
      rw [pushKeywords]
      obtain ⟨he, hargs⟩ := List.forall_mem_cons.mp h
      have hname : (Value.text name).Unmarked := rfl
      refine (keeps_push hname).bind fun _ _ => ?_
      refine keeps_pushed (evalExpr_unmarked hs e he) ?_
      exact pushKeywords_unmarked hs args _ hargs
  | .keywords e :: args, b, h => by
      rw [pushKeywords]
      obtain ⟨he, hargs⟩ := List.forall_mem_cons.mp h
      refine (Batches.keeps_gather b 2 fun _ => Batches.keywordsOf_unmarked).bind fun n _ => ?_
      refine keeps_pushed (evalExpr_unmarked hs e he) ?_
      exact pushKeywords_unmarked hs args _ hargs
  | .positional _ :: args, b, h | .splat _ :: args, b, h => by
      rw [pushKeywords]
      exact pushKeywords_unmarked hs args _ (List.forall_mem_cons.mp h).2

theorem pushItems_unmarked (hs : ∀ name, UnmarkedAny (s.vars name)) :
    ∀ items : List Expr, (∀ e ∈ items, e.Quiet) → Keeps (pushItems s items) fun _ => True
  | [], _ => by
      rw [pushItems]
      exact .pure trivial
  | e :: es, h => by
      rw [pushItems]
      obtain ⟨he, hes⟩ := List.forall_mem_cons.mp h
      refine keeps_pushed (evalExpr_unmarked hs e he) ?_
      exact pushItems_unmarked hs es hes

theorem pushEntries_unmarked (hs : ∀ name, UnmarkedAny (s.vars name)) :
    ∀ entries : List (Expr × Expr), (∀ e ∈ entries, e.1.Quiet ∧ e.2.Quiet) →
      Keeps (pushEntries s entries) fun _ => True
  | [], _ => by
      rw [pushEntries]
      exact .pure trivial
  | (k, e) :: es, h => by
      rw [pushEntries]
      obtain ⟨⟨hk, he⟩, hes⟩ := List.forall_mem_cons.mp h
      refine keeps_pushed (evalExpr_unmarked hs k hk) ?_
      refine keeps_pushed (evalExpr_unmarked hs e he) ?_
      exact pushEntries_unmarked hs es hes

end

end Stencil.Template
