import Mathlib.Data.List.Forall2
import Stencil.Proofs.Template.Parser.Operand
import Stencil.Template.Parser.Stmt

/-!
# What a parser makes of a form

Text is a statement, and so is an expression between its marks. The statements of a form are therefore its parts
in order, one for each (`exists_ofTokens_form`).
-/

namespace Stencil.Template

open Parse

/-- Whether a statement is what a part of a form is read as. -/
inductive Fragment.Reads : Fragment → Stmt → Prop
  | text (cs : List Char) (line : Nat) : Reads (.text cs) (.text cs line)
  | field (f : Field) {e : Expr} (h : e.Pipes (Expr.Refers f.reference.root f.reference.names) f.filters)
      (line : Nat) : Reads (.field f) (.print e line)

variable {ts rest : List Token} {one : Parse Stmt} {expr : Parse Expr} {ends : List String} {n depth : Nat}
  {E : Expr → Prop} {Q : List Stmt → Prop}

theorem yields_statements_text {cs : List Char} (h : Yields ts (statements one expr ends n) Q rest) :
    Yields (.text cs :: ts) (statements one expr ends (n + 1))
      (fun body => ∃ line more, body = .text cs line :: more ∧ Q more) rest := by
  refine yields_next.bind fun t? ht => ?_
  obtain ⟨line, rfl⟩ := ht
  exact h.bind fun more hmore => .pure ⟨line, more, rfl, hmore⟩

theorem yields_statements_print {inner : List Token}
    (hexpr : Yields (inner ++ .closePrint :: ts) expr E (.closePrint :: ts))
    (h : Yields ts (statements one expr ends n) Q rest) :
    Yields (.openPrint :: (inner ++ .closePrint :: ts)) (statements one expr ends (n + 1))
      (fun body => ∃ e line more, body = .print e line :: more ∧ E e ∧ Q more) rest := by
  refine yields_next.bind fun t? ht => ?_
  obtain ⟨line, rfl⟩ := ht
  refine hexpr.bind fun e he => (yields_expectSign rfl).bind fun _ _ => ?_
  exact h.bind fun more hmore => .pure ⟨e, line, more, rfl, he, hmore⟩

theorem yields_statements_end : Yields [] (statements one expr ends (n + 1)) (· = []) [] :=
  yields_next_nil.known (.pure rfl)

/-- Statements end in front of a word that ends them, which stays. -/
theorem yields_statements_close {word : String} (h : ends.contains word = true) :
    Yields (.openBlock :: .name word :: rest) (statements one expr ends (n + 1)) (· = []) (.name word :: rest) := by
  refine yields_next.bind fun t? ht => ?_
  obtain ⟨line, rfl⟩ := ht
  refine yields_peek.bind fun k? hk => ?_
  obtain ⟨line, rfl⟩ := hk
  show Yields _ (if ends.contains word then pure [] else _) _ _
  rw [if_pos h]
  exact .pure rfl

theorem yields_statements_block {word : String} {inner : List Token} {S : Stmt → Prop}
    (hword : ends.contains word = false)
    (hone : Yields (.name word :: inner) one S (.closeBlock :: ts))
    (h : Yields ts (statements one expr ends n) Q rest) :
    Yields (.openBlock :: .name word :: inner) (statements one expr ends (n + 1))
      (fun body => ∃ stmt more, body = stmt :: more ∧ S stmt ∧ Q more) rest := by
  refine yields_next.bind fun t? ht => ?_
  obtain ⟨line, rfl⟩ := ht
  refine yields_peek.bind fun k? hk => ?_
  obtain ⟨line, rfl⟩ := hk
  show Yields _ (if ends.contains word then pure [] else _) _ _
  rw [hword, if_neg Bool.false_ne_true]
  refine hone.bind fun stmt hstmt => (yields_expectSign rfl).bind fun _ _ => ?_
  exact h.bind fun more hmore => .pure ⟨stmt, more, rfl, hstmt, hmore⟩

/-- **Parts are read in order**, one statement for each, up to where the statements end. -/
theorem yields_statements {fragments : List Fragment} (hn : fragments.length < n)
    (hexpr : ∀ f, .field f ∈ fragments → ∀ rest, Yields (f.inner ++ .closePrint :: rest) expr
      (Expr.Pipes (Expr.Refers f.reference.root f.reference.names) f.filters) (.closePrint :: rest))
    (hend : ∀ n, Yields ts (statements one expr ends (n + 1)) (· = []) rest) :
    Yields (fragments.flatMap Fragment.tokens ++ ts) (statements one expr ends n)
      (List.Forall₂ Fragment.Reads fragments) rest := by
  induction fragments generalizing n with
  | nil =>
      obtain ⟨n, rfl⟩ : ∃ m, n = m + 1 := ⟨n - 1, by omega⟩
      exact (hend n).mono fun _ h => h ▸ .nil
  | cons p fragments ih =>
      obtain ⟨n, rfl⟩ : ∃ m, n = m + 1 := ⟨n - 1, by omega⟩
      have hrest := ih (Nat.lt_of_succ_lt_succ hn) fun f hf => hexpr f (List.mem_cons_of_mem _ hf)
      cases p with
      | text cs =>
          refine (yields_statements_text hrest).mono ?_
          rintro _ ⟨line, more, rfl, hmore⟩
          exact .cons (.text cs line) hmore
      | field f =>
          have htokens : (Fragment.field f :: fragments).flatMap Fragment.tokens ++ ts
              = .openPrint :: (f.inner ++ .closePrint :: (fragments.flatMap Fragment.tokens ++ ts)) := by
            simp [Fragment.tokens, Field.tokens]
          rw [htokens]
          refine (yields_statements_print (hexpr f List.mem_cons_self _) hrest).mono ?_
          rintro _ ⟨e, line, more, rfl, he, hmore⟩
          exact .cons (.field f he line) hmore

/-- **What a form is read as.** -/
theorem exists_ofTokens_form (f : Form) {placed : List Placed}
    (h : placed.map Placed.token = f.fragments.flatMap Fragment.tokens) :
    ∃ body, Stmt.ofTokens ⟨placed, none⟩ = .ok body ∧ List.Forall₂ Fragment.Reads f.fragments body := by
  have hlen : f.fragments.length ≤ placed.length := by
    rw [← List.length_map (f := Placed.token), h]
    exact length_le_flatMap Fragment.tokens_length_pos
  have hbody : Yields (f.fragments.flatMap Fragment.tokens)
      (bodyAt (placed.length + 1) (placed.length + 1) maxNesting []) (List.Forall₂ Fragment.Reads f.fragments) [] := by
    rw [← List.append_nil (f.fragments.flatMap Fragment.tokens)]
    refine yields_remaining.known (yields_statements ?_ (fun g hg rest => ?_) fun _ => yields_statements_end)
    · rw [List.append_nil, ← h, List.length_map]
      omega
    · -- A field is a part, so that there is a token to read an expression from.
      obtain ⟨m, hm⟩ : ∃ m, placed.length + 1 = m + 2 :=
        ⟨placed.length - 1, by have := List.length_pos_of_mem hg; omega⟩
      rw [hm, Field.inner, List.append_assoc]
      exact yields_reference g.reference g.filters rfl (show 0 < 148 by decide)
  obtain ⟨body, d, hd, hreads, -⟩ := hbody _ (faces_start h)
  exact ⟨body, by simp only [Stmt.ofTokens, hd], hreads⟩

end Stencil.Template
