import Stencil.Proofs.Substitution
import Stencil.Proofs.Template.Parser.Piped

/-!
# Templates of one marker

A template that is a single marker prints what its operand becomes behind its filters. An operand is looked up in
the variables or stands for itself, and each filter is applied to what comes in front of it and to its constants.
The marker has no line end behind it, so nothing depends on whether a template keeps the one it ends with.

Main statement: `render_marker`.
-/

namespace Stencil

namespace Template

open Parse

variable {escapes : Bool} {v : Variables} {st : Store} {s : Surroundings} {e : Expr} {x y : Value} {line : Nat}

/-! ## Evaluation -/

/-- At the start there is nothing that a value could refer to. -/
theorem view_start (x : Value) : Store.start.view x = x := by
  cases x <;> rfl

/-- Constants are put on the pile one after the other. -/
theorem pushPositional_given {gs : List Given} {args : List Arg} {b : Batches}
    (h : List.Forall₂ Given.ReadsArg gs args) :
    pushPositional s b args st
      = .ok (⟨b.gathered, b.single + gs.length⟩,
          { st with pile := (gs.map Given.value).reverse ++ st.pile }) := by
  induction h generalizing b st with
  | nil => rfl
  | @cons g _ gs args ha _ ih =>
      obtain ⟨_, ⟨line, rfl⟩, rfl⟩ := ha
      have hpush : pushPositional s b (.positional (.constant g.value line) :: args) st
          = pushPositional s ⟨b.gathered, b.single + 1⟩ args (st.push g.value) := rfl
      rw [hpush, ih]
      simp [Store.push, Nat.add_assoc, Nat.add_comm 1]

/-- None of them is given by name. -/
theorem pushKeywords_given {gs : List Given} {args : List Arg} {b : Batches}
    (h : List.Forall₂ Given.ReadsArg gs args) : pushKeywords s b args st = .ok (b, st) := by
  induction h with
  | nil => rfl
  | cons ha _ ih =>
      obtain ⟨_, -, rfl⟩ := ha
      exact ih

/-- What was put on the pile is taken off it in the same order. -/
theorem take_single (line : Nat) (vs : List Value) :
    Batches.take line ⟨0, vs.length⟩ none { st with pile := vs.reverse ++ st.pile } = .ok (vs, st) := by
  have hpop : Fill.pop vs.length { st with pile := vs.reverse ++ st.pile } = .ok (vs, st) := by
    have hlen : vs.length = vs.reverse.length := List.length_reverse.symm
    simp only [Fill.pop, Store.pop]
    rw [hlen, List.take_left, List.drop_left, List.reverse_reverse]
  exact hpop

/-- What a filter makes of a value. -/
def Pipe.apply (mode : EscapeMode) (f : Pipe) (x : Value) : Except Cause Value :=
  (Filter.apply mode f.name (x :: f.given.map Given.value)).getD (.error (.unknownFilter (some f.name)))

/-- What filters make of a value, one after the other. -/
def passed (mode : EscapeMode) (pipes : List Pipe) (x : Value) : Except Cause Value :=
  pipes.foldlM (fun x f => f.apply mode x) x

theorem passed_append (mode : EscapeMode) (pipes more : List Pipe) (x : Value) :
    passed mode (pipes ++ more) x = (passed mode pipes x).bind (passed mode more) := List.foldlM_append

@[simp] theorem passed_singleton (mode : EscapeMode) (f : Pipe) (x : Value) :
    passed mode [f] x = f.apply mode x := bind_pure _

/-- **A filter is applied to what comes in front of it and to its constants.** -/
theorem evalExpr_pipe {f : Pipe} {args : List Arg} (hview : ∀ x, st.view x = x)
    (hx : evalExpr s e st = .ok (x, st)) (hargs : List.Forall₂ Given.ReadsArg f.given args)
    (happly : f.apply s.mode x = .ok y) : evalExpr s (.filter f.name e args line) st = .ok (y, st) := by
  -- The value lies below the constants on the pile, and they are taken off it together.
  have hpositional : pushPositional s ⟨0, 1⟩ args (st.push x)
      = .ok (⟨0, (x :: f.given.map Given.value).length⟩,
          { st with pile := (x :: f.given.map Given.value).reverse ++ st.pile }) := by
    rw [pushPositional_given hargs]
    simp [Store.push, Nat.add_comm 1]
  have hfilter (line : Nat) :
      applyFilter s line f.name (x :: f.given.map Given.value) st = .ok (y, st) := by
    have hviews (vs : List Value) : Fill.views vs st = .ok (vs, st) := by
      rw [Fill.views, funext hview, List.map_id']
    rw [applyFilter, bind_of_ok (hviews _)]
    unfold Pipe.apply at happly
    cases hresult : Filter.apply s.mode f.name (x :: f.given.map Given.value) with
    | none =>
        rw [hresult] at happly
        contradiction
    | some result =>
        rw [hresult] at happly
        obtain rfl : result = .ok y := happly
        rfl
  have hpush : Fill.push x st = .ok ((), st.push x) := rfl
  have hnamed : Batches.when ⟨0, 0⟩ args = none := by
    rw [Batches.when, any_isNamed_of_readsArg hargs]
    rfl
  rw [evalExpr, bind_of_ok hx, bind_of_ok hpush, bind_of_ok hpositional,
    bind_of_ok (pushKeywords_given hargs), hnamed, bind_of_ok (take_single _ _)]
  exact hfilter _

/-- **Filters are applied one after the other**, the innermost first. -/
theorem evalExpr_passes {E : Expr → Prop} {pipes : List Pipe} (hview : ∀ x, st.view x = x)
    (h : e.Passes E pipes) :
    ∃ e₀, E e₀ ∧ ∀ x y, evalExpr s e₀ st = .ok (x, st) → passed s.mode pipes x = .ok y →
      evalExpr s e st = .ok (y, st) := by
  induction h with
  | nil h =>
      refine ⟨_, h, fun x y hx hy => ?_⟩
      obtain rfl : x = y := Except.ok.inj hy
      exact hx
  | @filter pipes e _ f args hargs line ih =>
      obtain ⟨e₀, he₀, hinner⟩ := ih
      refine ⟨e₀, he₀, fun x z hx hz => ?_⟩
      rw [passed_append] at hz
      cases hy : passed s.mode pipes x with
      | error c =>
          rw [hy] at hz
          contradiction
      | ok y =>
          rw [hy] at hz
          have hlast : f.apply s.mode y = .ok z := (passed_singleton s.mode f y).symm.trans hz
          exact evalExpr_pipe hview (hinner x y hx hy) hargs hlast

/-- A reference with filters behind it. -/
def Reference.through (r : Reference) (pipes : List Pipe) : Piped := ⟨.reference r, pipes⟩

/-- Whether a value is the one that an operand stands for. -/
def Subject.Holds (v : Variables) : Subject → Value → Prop
  | reference r, x => Stands (v.walk? r.root r.names) x
  | given g, x => x = g.value

/-- **An operand is looked up in the variables or stands for itself.** -/
theorem evalExpr_subject {subject : Subject} (h : subject.Reads e) (hs : Serves escapes v s st) :
    ∃ x, evalExpr s e st = .ok (x, st) ∧ subject.Holds v x := by
  cases subject with
  | reference r => exact evalExpr_refers h (hs.stands _ (of_isVariable r.isVariable).2.2)
  | given g =>
      obtain ⟨line, rfl⟩ := h
      exact ⟨g.value, rfl, rfl⟩

/-- An operand with filters is no call. -/
theorem ne_call_of_reads {p : Piped} (h : p.Reads e) : ∀ f args start, e ≠ .call f args start := by
  obtain ⟨subject, pipes⟩ := p
  cases h with
  | filter h f hargs line => exact fun _ _ _ => nofun
  | nil h =>
      cases subject with
      | reference r => exact ne_call (.nil h)
      | given g =>
          obtain ⟨_, rfl⟩ := h
          exact fun _ _ _ => nofun

/-! ## Templates -/

def Piped.markerChars (m : Piped) : List Char :=
  '\x7b' :: '\x7b' :: ' ' :: (m.chars ++ [' ', '\x7d', '\x7d'])

/-- A template that is a single marker. -/
def Piped.text (m : Piped) : String := String.ofList m.markerChars

/-- What a marker is cut into, behind a text. -/
theorem cuts_marker (m : Piped) {lead rest : List Char} {made : List Token} (hlead : '\x7b' ∉ lead)
    (h : Cuts (.text false) rest made) :
    Cuts (.text false) (lead ++ (m.markerChars ++ rest))
      (textTokens lead ++ .openPrint :: (m.tokens ++ .closePrint :: made)) := by
  have hclose : Cuts (.code false 0) (' ' :: '\x7d' :: '\x7d' :: rest) (.closePrint :: made) :=
    cuts_space rfl (cuts_closePrint h)
  have hinner := cuts_space (c := ' ') rfl (cuts_piped m (endsWord_cons (by decide)) hclose)
  simpa [Piped.markerChars] using cuts_openPrint hlead rfl hinner

/-- A template whose last character ends no line is the same whether line ends at the end are kept or not. -/
theorem ofText_of_getLast? {cs : List Char} {c : Char} (h : cs.getLast? = some c) (hline : c ≠ '\n')
    (hreturn : c ≠ '\r') (keepsNewline : Bool) : Tokens.ofText keepsNewline cs = Tokens.ofText true cs := by
  have hdrop : Text.dropLineEnd cs = cs := by
    simp [Text.dropLineEnd, Text.dropReturn, h, hline, hreturn]
  cases keepsNewline with
  | true => rfl
  | false => simp only [Tokens.ofText, hdrop, Bool.false_eq_true, if_false, if_true]

end Template

open Template Parse

namespace Policy

variable {p : Policy} {v : Variables} {cs out : List Char} {made : List Token} {Q : List Stmt → Prop}

/-- **A template is rendered through its stages**: cutting, reading and filling. -/
theorem render_of_stages (hend : cs.getLast? = some '\x7d') (hcuts : Cuts (.text false) cs made)
    (hreads : Yields made (bodyAt (made.length + 1) (made.length + 1) maxNesting []) Q [])
    (heval : ∀ body, Q body → ∀ s, Serves p.escapes v s Store.start →
      ∃ st, evalStmts s body Store.start = .ok (out, st)) :
    p.render (String.ofList cs) v = .ok (String.ofList out) := by
  obtain ⟨placed, hplaced, htokens⟩ := hcuts.ofText
  obtain ⟨body, d, hbody, hq, -⟩ := hreads _ (faces_start htokens)
  have hstatements : p.statements (String.ofList cs) = .ok body := by
    have hlen : made.length = placed.length := by rw [← htokens, List.length_map]
    rw [hlen] at hbody
    rw [statements, String.toList_ofList, ofText_of_getLast? hend (by decide) (by decide), hplaced]
    simp only [Stmt.ofTokens, hbody]
  have hfill : fill (valuesOf v) p.mode body = .ok out := by
    obtain ⟨st, hst⟩ := heval body hq _ (serves_start p.escapes v (Calls.upTo (valuesOf v) (definitionsOf body)
      (Store.maxDepth + 1)) .undefined)
    have hmode : p.mode = modeOf p.escapes := rfl
    simp only [fill, hmode, hst]
  rw [valuesOf] at hfill
  rw [render, hstatements]
  simp only [hfill]

/-- **A marker prints what its operand becomes behind its filters.** -/
theorem render_marker (m : Piped) (h : ∀ x, m.subject.Holds v x →
      ∃ y, passed (modeOf p.escapes) m.pipes x = .ok y ∧ Template.printed (modeOf p.escapes) y = .ok out) :
    p.render m.text v = .ok (String.ofList out) := by
  -- The marker is cut into tokens, these are read as one statement, and the statement is run.
  have hcuts : Cuts (.text false) m.markerChars (.openPrint :: (m.tokens ++ [.closePrint])) := by
    have hnone : '\x7b' ∉ ([] : List Char) := List.not_mem_nil
    simpa [textTokens] using cuts_marker m hnone (cuts_text hnone)
  have hend : m.markerChars.getLast? = some '\x7d' := by
    simp [Piped.markerChars, List.getLast?_cons, List.getLast?_append]
  have hreads : Yields (.openPrint :: (m.tokens ++ [.closePrint]))
      (bodyAt ((m.tokens ++ [Token.closePrint]).length + 2) ((m.tokens ++ [Token.closePrint]).length + 2)
        maxNesting [])
      (fun body => ∃ e line, body = [.print e line] ∧ m.Reads e) [] := by
    have hexpr : Yields (m.tokens ++ [.closePrint])
        (expression ((m.tokens ++ [Token.closePrint]).length + 2) maxNesting) m.Reads [.closePrint] :=
      yields_expression_piped m [] rfl (show 0 < 148 by decide)
    refine yields_remaining.known ((yields_statements_print hexpr yields_statements_end).mono ?_)
    rintro _ ⟨e, line, _, rfl, he, rfl⟩
    exact ⟨e, line, rfl, he⟩
  refine render_of_stages hend hcuts hreads ?_
  rintro _ ⟨e, line, rfl, he⟩ s hs
  obtain ⟨e₀, he₀, hpassed⟩ := evalExpr_passes view_start he
  obtain ⟨x, hx, hholds⟩ := evalExpr_subject he₀ hs
  obtain ⟨y, hy, hout⟩ := h x hholds
  rw [← hs.mode] at hy hout
  have hprint : evalStmt s (.print e line) Store.start = .ok (out, Store.start) :=
    evalPrint_of_evalExpr (ne_call_of_reads he) (hpassed x y hx hy) (by rw [view_start, hout])
  refine ⟨Store.start, ?_⟩
  rw [evalStmts, bind_of_ok hprint]
  exact congrArg (fun cs => Except.ok (cs, Store.start)) (List.append_nil out)

/-- A marker without filters prints what its names lead to. -/
theorem render_reference (r : Reference) :
    p.render (r.through []).text v = .ok (String.ofList (shown p.escapes (v.walk? r.root r.names))) :=
  render_marker _ fun x hx => ⟨x, rfl, printed_of_stands hx⟩

end Policy

end Stencil
