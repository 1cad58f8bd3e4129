import Mathlib.Data.List.Forall2
import Stencil.Proofs.Template.Parser.Operand
import Stencil.Proofs.Template.Piped

/-!
# What a parser makes of an operand with filters behind it

Each filter is read around what was read before, and its arguments are read one after the other, each as the
constant that it is written as. No filter has so many arguments that reading them is given up.

Main statements: `yields_expression_piped`, and `yields_disjunction_piped` where no choice may stand.
-/

namespace Stencil.Template

open Parse

variable {ts rest : List Token} {t : Token} {nested : Nested} {operand : Parse Expr} {n depth : Nat} {e : Expr}
  {E : Expr → Prop}

/-! ## Constants -/

/-- Whether an expression is a constant. -/
def Given.Reads (g : Given) (e : Expr) : Prop := ∃ line, e = .constant g.value line

/-- A token behind which an expression ends is no string. -/
theorem isString_of_endsExpr (ht : t.endsExpr = true) : isString t = false := by
  cases t <;> first | rfl | contradiction

/-- A constant that no string follows. -/
theorem yields_given (g : Given) (ht : isString t = false) (expr : Parse Expr) :
    Yields (g.token :: t :: rest) (primary expr) g.Reads (t :: rest) := by
  cases g with
  | text s hs => exact yields_string ht expr
  | yes =>
      refine yields_require.bind fun p hp => ?_
      rw [hp]
      exact .pure ⟨_, rfl⟩

/-- What starts a constant is no sign, and no word that the reader of an operand takes for something else. -/
theorem of_given (g : Given) :
    g.token.isName "not" = false ∧ g.token.isSign .minus = false ∧ g.token.isSign .power = false
      ∧ g.token.isSign .times = false ∧ g.token.isSign .closeParen = false := by
  cases g <;> exact ⟨rfl, rfl, rfl, rfl, rfl⟩

/-- Whether a parser reads a constant in front of what ends it. -/
def ReadsGiven (outer : Parse Expr) : Prop :=
  ∀ (g : Given) (t : Token) (rest : List Token), t.endsExpr = true →
    Yields (g.token :: t :: rest) outer g.Reads (t :: rest)

theorem readsGiven_expression (hdepth : 0 < depth) : ReadsGiven (expression (n + 1) (depth + 1)) :=
  fun g _ _ ht => yields_lone (of_given g).1 (of_given g).2.1 ht
    (yields_guarded hdepth (yields_given g (isString_of_endsExpr ht) _))

/-! ## Arguments -/

/-- Whether an argument is a constant, given by its position. -/
def Given.ReadsArg (g : Given) (a : Arg) : Prop := ∃ e, g.Reads e ∧ a = .positional e

theorem any_isNamed_of_readsArg {gs : List Given} {args : List Arg} (h : List.Forall₂ Given.ReadsArg gs args) :
    args.any Arg.isNamed = false := by
  induction h with
  | nil => rfl
  | cons ha _ ih =>
      obtain ⟨e, -, rfl⟩ := ha
      exact ih

theorem yields_argument (houter : ReadsGiven nested.outer) (g : Given) (ht : t.endsExpr = true) :
    Yields (g.token :: t :: rest) (argument nested false) g.ReadsArg (t :: rest) := by
  obtain ⟨-, -, hpower, htimes, -⟩ := of_given g
  refine (yields_skipSign_of_not hpower).known ?_
  refine (yields_skipSign_of_not htimes).known ?_
  refine (houter g t rest ht).bind ?_
  rintro _ ⟨line, rfl⟩
  exact .pure ⟨_, ⟨line, rfl⟩, rfl⟩

/-- One more argument, behind the comma if there is one, and what comes after it. -/
theorem yields_argumentsFrom_cons {done : List Given} {args : List Arg} {Q : List Arg → Prop}
    {mid : List Token} {b : Bool} (houter : ReadsGiven nested.outer) (g : Given) (ht : t.endsExpr = true)
    (hdone : List.Forall₂ Given.ReadsArg done args) (hfew : done.length < 2000)
    (hmore : ∀ args, List.Forall₂ Given.ReadsArg (done ++ [g]) args →
      Yields (t :: mid) (argumentsFrom nested n args) Q rest) :
    Yields (g.token :: t :: mid) (do
      let closes ← skipSign .closeParen
      if (b && closes) = true then pure args
      else
        let a ← argument nested (args.any Arg.isNamed)
        if (args ++ [a]).length > 2000 then fail else argumentsFrom nested n (args ++ [a])) Q rest := by
  obtain ⟨-, -, -, -, hcloses⟩ := of_given g
  refine (yields_skipSign_of_not hcloses).known ?_
  rw [Bool.and_false, if_neg Bool.false_ne_true, any_isNamed_of_readsArg hdone]
  refine (yields_argument houter g ht).bind fun a ha => ?_
  have hargs : List.Forall₂ Given.ReadsArg (done ++ [g]) (args ++ [a]) :=
    List.rel_append hdone (.cons ha .nil)
  have hlen : ¬ (args ++ [a]).length > 2000 := by
    rw [← hargs.length_eq, List.length_append, List.length_singleton]
    omega
  rw [if_neg hlen]
  exact hmore _ hargs

/-- Behind an argument comes a comma or the bracket. -/
theorem exists_laterTokens_eq (gs : List Given) (rest : List Token) :
    ∃ t more, laterTokens gs ++ .closeParen :: rest = t :: more ∧ t.endsExpr = true := by
  cases gs with
  | nil => exact ⟨.closeParen, rest, rfl, rfl⟩
  | cons g gs => exact ⟨.comma, _, rfl, rfl⟩

/-- **Arguments after the first are read in order.** -/
theorem yields_laterArguments (houter : ReadsGiven nested.outer) (gs : List Given) {done : List Given}
    {args : List Arg} (hn : gs.length ≤ n) (hfew : done.length + gs.length ≤ 2000) (hne : done ≠ [])
    (hdone : List.Forall₂ Given.ReadsArg done args) :
    Yields (laterTokens gs ++ .closeParen :: rest) (argumentsFrom nested (n + 1) args)
      (List.Forall₂ Given.ReadsArg (done ++ gs)) rest := by
  induction gs generalizing n done args with
  | nil =>
      rw [List.append_nil]
      exact (yields_skipSign rfl).known (.pure hdone)
  | cons g gs ih =>
      obtain ⟨n, rfl⟩ : ∃ m, n = m + 1 := ⟨n - 1, by simp only [List.length_cons] at hn; omega⟩
      simp only [List.length_cons] at hn hfew
      have hisEmpty : args.isEmpty = false := by
        rw [List.isEmpty_eq_false_iff, ← List.length_pos_iff, ← hdone.length_eq]
        exact List.length_pos_iff.mpr hne
      obtain ⟨t, more, hmore, ht⟩ := exists_laterTokens_eq gs rest
      show Yields (.comma :: g.token :: (laterTokens gs ++ .closeParen :: rest)) _ _ _
      rw [hmore]
      refine (yields_skipSign_of_not (t := .comma) rfl).known ?_
      simp only [hisEmpty, Bool.not_false, if_true, Bool.false_eq_true, if_false]
      refine (yields_expectSign rfl).bind fun _ _ => ?_
      refine yields_argumentsFrom_cons houter g ht hdone (by omega) fun args hargs => ?_
      have hlen : (done ++ [g]).length + gs.length ≤ 2000 := by
        rw [List.length_append, List.length_singleton]
        omega
      rw [← hmore, List.append_cons done]
      exact ih (Nat.le_of_succ_le_succ hn) hlen (List.append_ne_nil_of_right_ne_nil _ (List.cons_ne_nil _ _)) hargs

/-- **What arguments are read as**: their constants, in order. -/
theorem yields_optionalArguments (houter : ReadsGiven nested.outer) {gs : List Given}
    (hfew : gs.length ≤ 2000) :
    Yields (argumentTokens gs ++ rest) (optionalArguments nested) (List.Forall₂ Given.ReadsArg gs) rest := by
  cases gs with
  | nil =>
      refine yields_isSign.known ?_
      refine (yields_expectSign rfl).bind fun _ _ => yields_remaining.known ?_
      exact (yields_skipSign rfl).known (.pure .nil)
  | cons g gs =>
      obtain ⟨t, more, hmore, ht⟩ := exists_laterTokens_eq gs rest
      have htokens : argumentTokens (g :: gs) ++ rest
          = .openParen :: g.token :: (laterTokens gs ++ .closeParen :: rest) := by
        simp [argumentTokens]
      rw [htokens, hmore]
      refine yields_isSign.known ?_
      refine (yields_expectSign rfl).bind fun _ _ => yields_remaining.known ?_
      refine (yields_skipSign_of_not (of_given g).2.2.2.2).known ?_
      simp only [List.isEmpty_nil, Bool.not_true, Bool.false_eq_true, if_false]
      refine yields_argumentsFrom_cons houter g ht .nil (by decide) fun args hargs => ?_
      have hlen := length_le_flatMap (l := gs) (f := fun g => [Token.comma, g.token]) fun _ => by simp
      have hn : gs.length ≤ (t :: more).length := by
        rw [← hmore, List.length_append]
        exact Nat.le_add_right_of_le hlen
      have hlater : [g].length + gs.length ≤ 2000 := by
        rw [Nat.add_comm]
        exact hfew
      rw [← hmore] at hn ⊢
      exact yields_laterArguments houter gs hn hlater (List.cons_ne_nil _ _) hargs

/-! ## Filters -/

/-- Whether an expression is one that meets a condition, with filters and their arguments around it. -/
inductive Expr.Passes (E : Expr → Prop) : List Pipe → Expr → Prop
  | nil {e : Expr} (h : E e) : Passes E [] e
  | filter {pipes : List Pipe} {e : Expr} (h : Passes E pipes e) (f : Pipe) {args : List Arg}
      (hargs : List.Forall₂ Given.ReadsArg f.given args) (line : Nat) :
      Passes E (pipes ++ [f]) (.filter f.name e args line)

/-- What comes behind a name of a filter goes on with no name, and behind its arguments with no operand. -/
theorem exists_pipeTokens_eq (pipes : List Pipe) (ht : t.endsExpr = true) (rest : List Token) :
    ∃ s more, pipes.flatMap Pipe.tokens ++ t :: rest = s :: more ∧ s.continuesOperand = false
      ∧ isString s = false ∧ s.isSign .dot = false ∧ s.isSign .openParen = false := by
  cases pipes with
  | nil =>
      refine ⟨t, rest, rfl, ?_⟩
      cases t <;> first | exact ⟨rfl, rfl, rfl, rfl⟩ | contradiction
  | cons f pipes => exact ⟨.pipe, _, rfl, rfl, rfl, rfl, rfl⟩

/-- **Filters are read in order**, each with its arguments and around what was read before. -/
theorem yields_pipes (houter : ReadsGiven nested.outer) (ht : t.endsExpr = true) (pipes : List Pipe)
    {done : List Pipe} (hn : pipes.length ≤ n) (he : Expr.Passes E done e) :
    Yields (pipes.flatMap Pipe.tokens ++ t :: rest) (filters nested operand n e)
      (Expr.Passes E (done ++ pipes)) (t :: rest) := by
  induction pipes generalizing n done e with
  | nil =>
      rw [List.append_nil]
      exact yields_filters_end ht he
  | cons f pipes ih =>
      obtain ⟨n, rfl⟩ : ∃ m, n = m + 1 := ⟨n - 1, by simp only [List.length_cons] at hn; omega⟩
      have hrest (args : List Arg) (line : Nat) (hargs : List.Forall₂ Given.ReadsArg f.given args) :=
        ih (Nat.le_of_succ_le_succ hn) (he.filter f hargs line)
      rw [List.append_cons done]
      obtain ⟨name, hname, args?, few⟩ := f
      cases args? with
      | none =>
          -- Without arguments the next token is another pipe or the end, and no parenthesis in either case.
          obtain ⟨s, more, hmore, -, -, hdot, hparen⟩ := exists_pipeTokens_eq pipes ht rest
          have htokens : (⟨name, hname, none, few⟩ :: pipes).flatMap Pipe.tokens ++ t :: rest
              = .pipe :: .name name :: (pipes.flatMap Pipe.tokens ++ t :: rest) := rfl
          rw [htokens, hmore]
          refine yields_filters_cons hdot (yields_optionalArguments_of_not hparen) ?_
          rintro _ line rfl
          rw [← hmore]
          exact hrest [] line .nil
      | some gs =>
          have htokens : (⟨name, hname, some gs, few⟩ :: pipes).flatMap Pipe.tokens ++ t :: rest
              = .pipe :: .name name :: (argumentTokens gs ++ (pipes.flatMap Pipe.tokens ++ t :: rest)) := by
            simp [Pipe.tokens]
          obtain ⟨s, more, hmore, hdot⟩ : ∃ s more, argumentTokens gs ++ (pipes.flatMap Pipe.tokens ++ t :: rest)
              = s :: more ∧ s.isSign .dot = false := by
            cases gs <;> exact ⟨.openParen, _, rfl, rfl⟩
          have hargs : Yields (argumentTokens gs ++ (pipes.flatMap Pipe.tokens ++ t :: rest))
              (optionalArguments nested) (List.Forall₂ Given.ReadsArg gs)
              (pipes.flatMap Pipe.tokens ++ t :: rest) :=
            yields_optionalArguments houter few
          rw [htokens, hmore]
          rw [hmore] at hargs
          exact yields_filters_cons hdot hargs hrest

/-! ## Whole expressions -/

def Subject.Reads : Subject → Expr → Prop
  | reference r => Expr.Refers r.root r.names
  | given g => g.Reads

/-- Whether an expression is an operand with filters. -/
def Piped.Reads (p : Piped) (e : Expr) : Prop := e.Passes p.subject.Reads p.pipes

theorem yields_subject (subject : Subject) (rest : List Token) (ht : t.continuesOperand = false)
    (hstring : isString t = false) (hdepth : 0 < depth) :
    Yields (subject.tokens ++ t :: rest)
      (signedPostfix (nestedAt (n + 1) (depth + 1)) (operandAt (n + 1) (depth + 1))) subject.Reads
      (t :: rest) := by
  cases subject with
  | reference r => exact yields_steps r rest ht hdepth
  | given g =>
      exact yields_signedPostfix (of_given g).2.1
        (yields_guarded (Nat.succ_pos _) (yields_given g hstring _)) fun _ _ he => yields_postfixes_end ht he

/-- An operand with its filters, in front of a token that ends an expression. -/
theorem yields_unary (p : Piped) (rest : List Token) (ht : t.endsExpr = true) (hdepth : 0 < depth) :
    Yields (p.tokens ++ t :: rest) (unary (nestedAt (n + 1) (depth + 1)) (operandAt (n + 1) (depth + 1))) p.Reads
      (t :: rest) := by
  obtain ⟨subject, pipes⟩ := p
  obtain ⟨s, more, hmore, hs, hstring, -⟩ := exists_pipeTokens_eq pipes ht rest
  have hsubject := yields_subject (n := n) subject more hs hstring hdepth
  rw [← hmore, ← List.append_assoc] at hsubject
  refine hsubject.bind fun e he => yields_remaining.known ?_
  have hlen := length_le_flatMap (l := pipes) Pipe.tokens_length_pos
  refine yields_pipes (readsGiven_expression hdepth) ht pipes ?_ (.nil he)
  rw [List.length_append]
  exact Nat.le_succ_of_le (Nat.le_add_right_of_le hlen)

/-- The first token of an operand is none that the reader of an operand takes for something else. -/
theorem exists_pipedTokens_eq (p : Piped) : ∃ s more, p.tokens = s :: more ∧ s.isName "not" = false := by
  obtain ⟨subject, pipes⟩ := p
  cases subject with
  | reference r => exact ⟨_, _, rfl, isName_root r⟩
  | given g => exact ⟨_, _, rfl, (of_given g).1⟩

/-- **What an operand with filters is read as** where an expression may stand. -/
theorem yields_expression_piped (p : Piped) (rest : List Token) (ht : t.endsExpr = true) (hdepth : 0 < depth) :
    Yields (p.tokens ++ t :: rest) (expression (n + 2) (depth + 2)) p.Reads (t :: rest) := by
  obtain ⟨s, more, hs, hnot⟩ := exists_pipedTokens_eq p
  have hunary := yields_unary (n := n) p rest ht hdepth
  rw [hs] at hunary ⊢
  exact yields_expression hnot ht hunary

/-- **What an operand with filters is read as** where no choice may stand. -/
theorem yields_disjunction_piped (p : Piped) (rest : List Token) (ht : t.endsExpr = true) (hdepth : 0 < depth) :
    Yields (p.tokens ++ t :: rest) (disjunction (n + 2) (depth + 1)) p.Reads (t :: rest) := by
  obtain ⟨s, more, hs, hnot⟩ := exists_pipedTokens_eq p
  have hunary := yields_unary (n := n) p rest ht hdepth
  rw [hs] at hunary ⊢
  exact yields_disjunctionOf hnot ht hunary

end Stencil.Template
