import Stencil.Template.Stmt

/-!
# Conditions on the parts of a template

A condition holds everywhere in an expression when it holds of the expression and of all that it is put
together from. A condition on expressions holds everywhere in a statement when it holds of each
expression that the statement spells, those of the statements inside of it included. What a target merely
names is no expression.
-/

namespace Stencil.Template

/-! ## Expressions -/

def Arg.value : Arg → Expr
  | .positional e | .splat e | .keyword _ e | .keywords e => e

/-- Whether a condition holds of the expressions of some arguments. -/
def EveryArg (E : Expr → Prop) (args : List Arg) : Prop := ∀ a ∈ args, E a.value

/-- Whether a condition holds of an expression that may be left out. -/
def EveryAny (E : Expr → Prop) (e? : Option Expr) : Prop := ∀ e ∈ e?, E e

/-- What an expression is put together from. -/
def Expr.parts : Expr → List Expr
  | .name .. | .constant .. | .absent | .captured => []
  | .negation e _ | .negative e _ | .attribute e _ _ => [e]
  | .binary _ l r _ | .item l r _ => [l, r]
  | .comparison e others _ => e :: others.map Prod.snd
  | .choice c v a _ => [c, v, a]
  | .filter _ e args _ | .test _ e args _ | .call e args _ => e :: args.map Arg.value
  | .slice e a b c _ => [e, a, b, c]
  | .list items _ => items
  | .map entries _ => entries.flatMap fun e => [e.1, e.2]

/-- Whether a condition holds of an expression and of all of its parts. -/
inductive Expr.Every (p : Expr → Prop) : Expr → Prop where
  | intro {e : Expr} (node : p e) (parts : ∀ part ∈ e.parts, Expr.Every p part) : Expr.Every p e

namespace Expr.Every

variable {p q : Expr → Prop} {e : Expr}

theorem node (h : e.Every p) : p e := by
  obtain ⟨hnode, -⟩ := h
  exact hnode

theorem part (h : e.Every p) : ∀ part ∈ e.parts, part.Every p := by
  obtain ⟨-, hparts⟩ := h
  exact hparts

theorem and (hp : e.Every p) (hq : e.Every q) : e.Every fun e => p e ∧ q e := by
  induction hp with
  | intro hnode _ ih => exact ⟨⟨hnode, hq.node⟩, fun e he => ih e he (hq.part e he)⟩

end Expr.Every

/-- Whether a condition is found to hold of an expression and of all of its parts, which are looked into down to a
depth. -/
def Expr.checks (p : Expr → Prop) [DecidablePred p] : Nat → Expr → Bool
  | 0, _ => false
  | n + 1, e => decide (p e) && e.parts.all (checks p n)

theorem Expr.every_of_checks {p : Expr → Prop} [DecidablePred p] {n : Nat} {e : Expr} (h : e.checks p n = true) :
    e.Every p := by
  induction n generalizing e with
  | zero => contradiction
  | succ n ih =>
      simp only [checks, Bool.and_eq_true, decide_eq_true_eq, List.all_eq_true] at h
      exact .intro h.1 fun part hpart => ih (h.2 part hpart)

/-! ## Statements -/

mutual

/-- Whether a condition holds of every expression of a target. -/
def Target.Every (E : Expr → Prop) : Target → Prop
  | .name _ _ => True
  | .parts items _ => EveryTarget E items
  | .attribute object _ _ => E object

/-- Whether a condition holds of every expression of some targets. -/
def EveryTarget (E : Expr → Prop) : List Target → Prop
  | [] => True
  | t :: ts => t.Every E ∧ EveryTarget E ts

end

mutual

/-- Whether a condition holds of every expression of a statement. A name that is asked of another
template is sought like one in an expression. -/
def Stmt.Every (E : Expr → Prop) : Stmt → Prop
  | .text _ _ => True
  | .print e _ | .perform e _ | .inclusion e _ _ | .extension e _ => E e
  | .loop _ target subject only _ body otherwise _ =>
      target.Every E ∧ E subject ∧ EveryAny E only ∧ EveryStmt E body ∧ EveryStmt E otherwise
  | .branch c body otherwise _ => E c ∧ EveryStmt E body ∧ EveryStmt E otherwise
  | .scope bindings body _ => (∀ b ∈ bindings, b.1.Every E ∧ E b.2) ∧ EveryStmt E body
  | .assign target e _ | .importation e target _ => target.Every E ∧ E e
  | .capture target e body _ => target.Every E ∧ E e ∧ EveryStmt E body
  | .escaping e body _ | .filtered e body _ => E e ∧ EveryStmt E body
  | .block _ _ body _ => EveryStmt E body
  | .selection e names line => E e ∧ ∀ n ∈ names, E (.name n.1 line)
  | .define decl => decl.Every E
  | .callWith call caller _ => E call ∧ caller.Every E

/-- Whether a condition holds of every expression of some statements. -/
def EveryStmt (E : Expr → Prop) : List Stmt → Prop
  | [] => True
  | s :: ss => s.Every E ∧ EveryStmt E ss

/-- Whether a condition holds of every expression of a macro. -/
def MacroDecl.Every (E : Expr → Prop) : MacroDecl → Prop
  | .mk _ _ _ defaults body _ => (∀ e ∈ defaults, E e) ∧ EveryStmt E body

end

end Stencil.Template
