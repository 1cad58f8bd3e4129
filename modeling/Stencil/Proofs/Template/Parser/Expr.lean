import Stencil.Proofs.Template.Parser.Cursor
import Stencil.Proofs.Template.Unmarked
import Stencil.Proofs.Template.Within
import Stencil.Template.Parser.Expr

/-!
# What a parser makes of expressions

A condition on expressions holds of all that is read when it holds of the words and literals in front, and
of whatever is put together from expressions for which it holds (`Reads`). An operation on constants may
become a constant, so such a condition says something of the operations on values too.

That every name that is sought in an expression is a word among the tokens is one such condition.

Main statement: `keeps_expression`.
-/

namespace Stencil.Template

open Parse

/-- Conditions that hold of every expression that is read where all words in front are in a set. -/
class Reads (P : outParam (String → Prop)) (E : Expr → Prop) : Prop where
  name {s : String} (h : P s) (line : Nat) : E (.name s line)
  literal (v : Value) (h : v.Unmarked) (line : Nat) : E (.constant v line)
  absent : E .absent
  captured : E .captured
  endingAt {e : Expr} (h : E e) (left : Nat) : E (e.endingAt left)
  ofItems {items : List Expr} (h : ∀ e ∈ items, E e) (line : Nat) : E (.ofItems items line)
  ofEntries {entries : List (Expr × Expr)} (h : ∀ e ∈ entries, E e.1 ∧ E e.2) (line : Nat) :
    E (.ofEntries entries line)
  ofNegation {e : Expr} (h : E e) (line : Nat) : E (.ofNegation e line)
  ofNegative {e : Expr} (h : E e) (line : Nat) : E (.ofNegative e line)
  ofBinary {l r : Expr} (hl : E l) (hr : E r) (op : BinaryOp) (line : Nat) :
    E (.ofBinary op l r line)
  ofComparison {first : Expr} {others : List (Relation × Expr)} (hf : E first)
    (ho : ∀ o ∈ others, E o.2) (line : Nat) : E (.ofComparison first others line)
  choice {c v a : Expr} (hc : E c) (hv : E v) (ha : E a) (line : Nat) : E (.choice c v a line)
  filter {e : Expr} (h : E e) {args : List Arg} (ha : EveryArg E args) (name : String)
    (line : Nat) : E (.filter name e args line)
  test {e : Expr} (h : E e) {args : List Arg} (ha : EveryArg E args) (name : String)
    (line : Nat) : E (.test name e args line)
  call {f : Expr} (h : E f) {args : List Arg} (ha : EveryArg E args) (line : Nat) :
    E (.call f args line)
  attribute_iff {e : Expr} {name : String} {line : Nat} : E (.attribute e name line) ↔ E e
  item {e i : Expr} (h : E e) (hi : E i) (line : Nat) : E (.item e i line)
  slice {e a b c : Expr} (h : E e) (ha : E a) (hb : E b) (hc : E c) (line : Nat) :
    E (.slice e a b c line)
  items {items : List Expr} {line : Nat} (h : E (.list items line)) : ∀ e ∈ items, E e

variable {P : String → Prop}

/-! ## Names -/

theorem known_within {e : Expr} (h : e.Within P) (value : Option (Except Cause Value))
    (line : Nat) : (Expr.known e value line).Within P := by
  unfold Expr.known
  split
  · exact trivial
  · exact h

theorem endingAt_within {e : Expr} (h : e.Within P) (left : Nat) : (e.endingAt left).Within P := by
  unfold Expr.endingAt
  split
  · exact trivial
  · exact h

/-- **Every name that is sought in an expression is a word.** -/
instance reads_within : Reads P (Expr.Within P) where
  name h _ := h
  literal _ _ _ := trivial
  absent := trivial
  captured := trivial
  endingAt := endingAt_within
  ofItems {items} h line := known_within (e := .list items line) (withinItems_iff.mpr h) _ line
  ofEntries {entries} h line :=
    known_within (e := .map entries line) (withinEntries_iff.mpr h) _ line
  ofNegation {e} h line := known_within (e := .negation e line) h _ line
  ofNegative {e} h line := known_within (e := .negative e line) h _ line
  ofBinary {l r} hl hr op line := known_within (e := .binary op l r line) ⟨hl, hr⟩ _ line
  ofComparison {first others} hf ho line :=
    known_within (e := .comparison first others line) ⟨hf, withinOthers_iff.mpr ho⟩ _ line
  choice hc hv ha _ := ⟨hc, hv, ha⟩
  filter h _ ha _ _ := ⟨h, withinArgs_iff.mpr ha⟩
  test h _ ha _ _ := ⟨h, withinArgs_iff.mpr ha⟩
  call h _ ha _ := ⟨h, withinArgs_iff.mpr ha⟩
  attribute_iff := Iff.rfl
  item h hi _ := ⟨h, hi⟩
  slice h ha hb hc _ := ⟨h, ha, hb, hc⟩
  items h := withinItems_iff.mp h

variable {E : Expr → Prop} {nested : Nested} {expr operand : Parse Expr}

/-! ## Lists, names and arguments -/

section Brackets

variable {α : Type} {Q : α → Prop} {close : Token} {item : Parse α}

theorem keeps_listed (hi : Keeps P item Q) (n : Nat) (isLater : Bool) :
    Keeps P (listed close item n isLater) fun xs => ∀ x ∈ xs, Q x := by
  induction n generalizing isLater with
  | zero => exact keeps_fail
  | succ n ih =>
      unfold listed
      refine (keeps_skipSign close).bind fun b _ => .ite (fun _ => .pure (List.forall_mem_nil Q)) ?_
      refine fun _ => .when (keeps_expectSign .comma) fun _ => ?_
      refine (keeps_skipSign close).bind fun b _ => .ite (fun _ => .pure (List.forall_mem_nil Q)) ?_
      refine fun _ => hi.bind fun x hx => (ih true).bind fun xs hxs => ?_
      exact .pure (List.forall_mem_cons.mpr ⟨hx, hxs⟩)

theorem keeps_listedAll (hi : Keeps P item Q) (isLater : Bool) :
    Keeps P (listedAll close item isLater) fun xs => ∀ x ∈ xs, Q x :=
  keeps_remaining.bind fun n _ => keeps_listed hi (n + 1) isLater

end Brackets

theorem keeps_mapEntry (he : Keeps P expr E) : Keeps P (mapEntry expr) fun e => E e.1 ∧ E e.2 :=
  he.bind fun _ hk => (keeps_expectSign .colon).bind fun _ _ => he.bind fun _ hv => .pure ⟨hk, hv⟩

theorem keeps_joinStrings (n : Nat) (s : String) : Keeps P (joinStrings n s) Any := by
  induction n generalizing s with
  | zero => exact .pure trivial
  | succ n ih =>
      unfold joinStrings
      refine keeps_peek.bind fun t? _ => ?_
      split
      · exact keeps_next.bind fun _ _ => ih _
      · exact .pure trivial

theorem keeps_stringFrom (s : String) (plain : Bool) : Keeps P (stringFrom s plain) Any := by
  unfold stringFrom
  extract_lets go
  have hgo (stands : Bool) : Keeps P (go stands) Any :=
    .ite (fun _ => keeps_pure) fun _ => keeps_remaining.bind fun n _ => keeps_joinStrings _ s
  exact .either (keeps_peekFaultless.map fun _ _ => trivial) keeps_pure fun b _ => hgo b

theorem keeps_dottedRest (n : Nat) (name : String) : Keeps P (dottedRest n name) Any := by
  induction n generalizing name with
  | zero => exact keeps_pure
  | succ n ih =>
      refine (keeps_skipSign .dot).bind fun b _ => .ite (fun _ => ?_) fun _ => keeps_pure
      exact keeps_word.bind fun r _ => ih (name ++ "." ++ r.1)

theorem keeps_dottedName : Keeps P dottedName Any :=
  keeps_word.bind fun r _ => keeps_remaining.bind fun n _ =>
    (keeps_dottedRest n r.1).bind fun _ _ => keeps_pure

theorem keeps_argument (ho : Keeps P nested.outer E) (named : Bool) :
    Keeps P (argument nested named) fun a => E a.value := by
  unfold argument
  refine (keeps_skipSign .power).bind fun b _ => .ite (fun _ => ?_) fun _ => ?_
  · exact ho.bind fun e he => .pure he
  refine (keeps_skipSign .times).bind fun b _ => .ite (fun _ => ?_) fun _ => ?_
  · exact ho.bind fun e he => .pure he
  refine ho.bind fun e he => ?_
  split
  · refine (keeps_skipSign .assign).bind fun b _ => .ite (fun _ => ?_) fun _ => ?_
    · exact ho.bind fun e he => .pure he
    · exact .ite (fun _ => keeps_fail) fun _ => .pure he
  · exact .ite (fun _ => keeps_fail) fun _ => .pure he

theorem keeps_argumentsFrom (ho : Keeps P nested.outer E) (n : Nat)
    {args : List Arg} (ha : EveryArg E args) :
    Keeps P (argumentsFrom nested n args) (EveryArg E) := by
  induction n generalizing args with
  | zero => exact keeps_fail
  | succ n ih =>
      unfold argumentsFrom
      refine (keeps_skipSign .closeParen).bind fun b _ => .ite (fun _ => .pure ha) fun _ => ?_
      refine .when (keeps_expectSign .comma) fun _ => ?_
      refine (keeps_skipSign .closeParen).bind fun b _ => .ite (fun _ => .pure ha) fun _ => ?_
      refine (keeps_argument ho _).bind fun a hw => .ite (fun _ => keeps_fail) fun _ => ih ?_
      exact List.forall_mem_append.mpr ⟨ha, List.forall_mem_singleton.mpr hw⟩

theorem keeps_arguments (ho : Keeps P nested.outer E) : Keeps P (arguments nested) (EveryArg E) :=
  (keeps_expectSign .openParen).bind fun _ _ => keeps_remaining.bind fun n _ =>
    keeps_argumentsFrom ho (n + 1) (List.forall_mem_nil _)

theorem keeps_optionalArguments (ho : Keeps P nested.outer E) :
    Keeps P (optionalArguments nested) (EveryArg E) :=
  (keeps_isSign .openParen).bind fun _ _ =>
    .ite (fun _ => keeps_arguments ho) fun _ => .pure (List.forall_mem_nil _)

theorem keeps_relations (hp : Keeps P operand E) (n : Nat) :
    Keeps P (relations operand n) fun others => ∀ o ∈ others, E o.2 := by
  induction n with
  | zero => exact .pure (List.forall_mem_nil _)
  | succ n ih =>
      unfold relations
      refine (keeps_skipWord "not").bind fun b _ => .ite (fun _ => ?_) fun _ => ?_
      · refine (keeps_expectWord "in").bind fun _ _ => hp.bind fun e he => ih.bind fun os hos => ?_
        exact .pure (List.forall_mem_cons.mpr ⟨he, hos⟩)
      · refine keeps_peek.bind fun t? _ => ?_
        split
        · exact .pure (List.forall_mem_nil _)
        · refine keeps_next.bind fun _ _ => hp.bind fun e he => ih.bind fun os hos => ?_
          exact .pure (List.forall_mem_cons.mpr ⟨he, hos⟩)

theorem EveryAny.getD {e? : Option Expr} (h : EveryAny E e?) {e : Expr} (he : E e) :
    E (e?.getD e) := by
  cases e? with
  | none => exact he
  | some e' => exact h e' rfl

theorem keeps_some (he : Keeps P expr E) : Keeps P (some <$> expr) (EveryAny E) :=
  he.map fun _ h _ he' => Option.some.inj he' ▸ h

theorem keeps_guarded (depth : Nat) (he : Keeps P expr E) :
    Keeps P (guarded depth expr) E := .ite (fun _ => keeps_fail) fun _ => he

/-! ## Operands -/

variable [Reads P E]

theorem keeps_ended {e : Expr} (h : E e) : Keeps P (ended e) E :=
  keeps_remaining.bind fun n _ => .pure (Reads.endingAt h n)

theorem keeps_parenthesised (he : Keeps P expr E) (line : Nat) :
    Keeps P (parenthesised expr line) E := by
  unfold parenthesised
  refine (keeps_skipSign .closeParen).bind fun b _ => .ite (fun _ => ?_) fun _ => ?_
  · exact keeps_ended (Reads.ofItems (List.forall_mem_nil _) line)
  · refine he.bind fun first hf => (keeps_isSign .comma).bind fun b _ => .ite (fun _ => ?_) ?_
    · refine (keeps_listedAll he true).bind fun more hm => ?_
      exact keeps_ended (Reads.ofItems (List.forall_mem_cons.mpr ⟨hf, hm⟩) line)
    · exact fun _ => (keeps_expectSign .closeParen).bind fun _ _ => .pure hf

theorem reads_wordOperand {s : String} (h : P s) (line : Nat) : E (wordOperand s line) := by
  unfold wordOperand
  repeat' split
  · exact Reads.literal (.bool true) trivial line
  · exact Reads.literal (.bool false) trivial line
  · exact Reads.literal .none trivial line
  · exact Reads.name h line

theorem keeps_primary (he : Keeps P expr E) : Keeps P (primary expr) E := by
  unfold primary
  refine keeps_require.bind fun t ht => ?_
  split
  · rename_i s hs
    exact .pure (reads_wordOperand (ht s hs) t.line)
  · exact (keeps_stringFrom _ _).bind fun s _ => .pure (Reads.literal (.text s) rfl t.line)
  · exact .pure (Reads.literal (.ofCount _) trivial t.line)
  · exact .pure (Reads.literal (.float _) trivial t.line)
  · exact keeps_parenthesised he t.line
  · exact (keeps_listedAll he false).bind fun _ hi => keeps_ended (Reads.ofItems hi t.line)
  · exact (keeps_listedAll (keeps_mapEntry he) false).bind fun _ hi =>
      keeps_ended (Reads.ofEntries hi t.line)
  · exact keeps_fail

/-! ## After an operand -/

theorem keeps_subscript (ho : Keeps P nested.outer E) {object : Expr} (h : E object) (line : Nat) :
    Keeps P (subscript nested object line) E := by
  have hout (l : Nat) : E (leftOut l) := Reads.literal .none trivial l
  have hleft (l : Nat) : Keeps P (pure (leftOut l)) E := .pure (hout l)
  unfold subscript
  refine (keeps_isSign .colon).bind fun b _ => ?_
  extract_lets reached go
  have hgo (start? : Option Expr) (hstart : EveryAny E start?) : Keeps P (go start?) E := by
    refine (keeps_skipSign .colon).bind fun b _ => .ite (fun _ => ?_) fun _ => ?_
    · extract_lets start reached' goStop
      have hs : E start := hstart.getD (hout _)
      refine (keeps_isSign .closeBracket).bind fun b _ => (keeps_isSign .colon).bind fun b' _ => ?_
      have hstop (stop : Expr) (hp : E stop) : Keeps P (goStop stop) E := by
        refine (keeps_skipSign .colon).bind fun b _ => ?_
        extract_lets goStep
        have hstep (step : Expr) (ht : E step) : Keeps P (goStep step) E :=
          (keeps_expectSign .closeBracket).bind fun _ _ => .pure (Reads.slice h hs hp ht line)
        refine .ite (fun _ => ?_) fun _ => (hleft _).bind hstep
        exact (keeps_isSign .closeBracket).bind fun b _ => .either (hleft _) ho hstep
      exact .either (hleft _) ho hstop
    · refine (keeps_expectSign .closeBracket).bind fun _ _ => ?_
      split
      · exact .pure (Reads.item h (hstart _ rfl) line)
      · exact keeps_fail
  exact .either (.pure fun e he => by contradiction) (keeps_some ho) hgo

theorem keeps_postfixes (ho : Keeps P nested.outer E) (n line : Nat) {e : Expr}
    (h : E e) : Keeps P (postfixes nested n line e) E := by
  induction n generalizing line e with
  | zero => exact .pure h
  | succ n ih =>
      unfold postfixes
      refine keeps_hereLine.bind fun here _ => ?_
      refine (keeps_skipSign .dot).bind fun b _ => .ite (fun _ => ?_) fun _ => ?_
      · refine keeps_require.bind fun t _ => ?_
        split
        · exact ih here (Reads.attribute_iff.mpr h)
        · exact ih here (Reads.item h (Reads.literal (.ofCount _) trivial _) line)
        · exact keeps_fail
      refine (keeps_skipSign .openBracket).bind fun b _ => .ite (fun _ => ?_) fun _ => ?_
      · exact (keeps_subscript ho h line).bind fun e he => ih here he
      refine (keeps_isSign .openParen).bind fun b _ => .ite (fun _ => ?_) fun _ => .pure h
      exact (keeps_arguments ho).bind fun args ha => ih here (Reads.call h ha line)

theorem keeps_signed (hp : Keeps P operand E) (n : Nat) : Keeps P (signed operand n) E := by
  induction n with
  | zero => exact keeps_fail
  | succ n ih =>
      refine keeps_hereLine.bind fun line _ => (keeps_skipSign .minus).bind fun b _ => ?_
      exact .ite (fun _ => ih.bind fun e he => .pure (Reads.ofNegative he line)) fun _ => hp

theorem keeps_signedPostfix (ho : Keeps P nested.outer E) (hp : Keeps P operand E) :
    Keeps P (signedPostfix nested operand) E := by
  refine keeps_hereLine.bind fun line _ => keeps_remaining.bind fun n _ => ?_
  refine (keeps_signed hp (n + 1)).bind fun e he => keeps_remaining.bind fun m _ => ?_
  exact keeps_postfixes ho (m + 1) line he

theorem keeps_testArguments (ho : Keeps P nested.outer E) (hp : Keeps P operand E) :
    Keeps P (testArguments nested operand) (EveryArg E) := by
  unfold testArguments
  refine (keeps_isSign .openParen).bind fun b _ => .ite (fun _ => keeps_arguments ho) fun _ => ?_
  refine (keeps_isNext startsTestArgument).bind fun b _ => .ite (fun _ => ?_) ?_
  · exact (keeps_signedPostfix ho hp).bind fun e he => .pure (List.forall_mem_singleton.mpr he)
  · exact fun _ => .pure (List.forall_mem_nil _)

theorem keeps_filters (ho : Keeps P nested.outer E)
    (hp : Keeps P operand E) (n : Nat) {e : Expr} (h : E e) :
    Keeps P (filters nested operand n e) E := by
  induction n generalizing e with
  | zero => exact .pure h
  | succ n ih =>
      unfold filters
      refine (keeps_skipSign .pipe).bind fun b _ => .ite (fun _ => ?_) fun _ => ?_
      · refine keeps_dottedName.bind fun r _ => ?_
        exact (keeps_optionalArguments ho).bind fun args ha => ih (Reads.filter h ha r.1 r.2)
      refine (keeps_skipWord "is").bind fun b _ => .ite (fun _ => ?_) fun _ => .pure h
      refine (keeps_skipWord "not").bind fun negated _ => keeps_dottedName.bind fun r _ => ?_
      refine (keeps_testArguments ho hp).bind fun args ha => ih ?_
      have ht : E (.test r.1 e args r.2) := Reads.test h ha r.1 r.2
      split
      · exact Reads.ofNegation ht r.2
      · exact ht

theorem keeps_unary (ho : Keeps P nested.outer E)
    (hp : Keeps P operand E) : Keeps P (unary nested operand) E :=
  (keeps_signedPostfix ho hp).bind fun _ he => keeps_remaining.bind fun n _ =>
    keeps_filters ho hp (n + 1) he

/-! ## Operators -/

theorem keeps_operators (hp : Keeps P operand E) (op? : Token → Option BinaryOp)
    (line n : Nat) {e : Expr} (h : E e) :
    Keeps P (operators operand op? line n e) E := by
  induction n generalizing e with
  | zero => exact .pure h
  | succ n ih =>
      unfold operators
      refine keeps_peek.bind fun t? _ => ?_
      split
      · exact .pure h
      · rename_i op _
        refine keeps_next.bind fun _ _ => hp.bind fun r hr => ?_
        exact (keeps_ended (Reads.ofBinary h hr op line)).bind fun e' he' => ih he'

theorem keeps_leftAssociative (hp : Keeps P operand E) (op? : Token → Option BinaryOp) :
    Keeps P (leftAssociative operand op?) E :=
  keeps_hereLine.bind fun line _ => hp.bind fun _ he => keeps_remaining.bind fun n _ =>
    keeps_operators hp op? line (n + 1) he

theorem keeps_comparison (hp : Keeps P operand E) : Keeps P (comparison operand) E := by
  unfold comparison
  refine keeps_lastLine.bind fun line _ => hp.bind fun first hf => ?_
  refine keeps_remaining.bind fun n _ => (keeps_relations hp (n + 1)).bind fun others ho => ?_
  split
  · exact .pure hf
  · exact .pure (Reads.ofComparison hf ho line)

theorem keeps_negations (hp : Keeps P operand E) (n : Nat) : Keeps P (negations operand n) E := by
  induction n with
  | zero => exact keeps_fail
  | succ n ih =>
      refine keeps_hereLine.bind fun line _ => (keeps_skipWord "not").bind fun b _ => ?_
      exact .ite (fun _ => ih.bind fun e he => .pure (Reads.ofNegation he line)) fun _ => hp

theorem keeps_disjunctionOf (ho : Keeps P nested.outer E) (hp : Keeps P operand E) :
    Keeps P (disjunctionOf nested operand) E := by
  have hpower := keeps_leftAssociative (keeps_unary ho hp) powerOp?
  have hproduct := keeps_leftAssociative hpower productOp?
  have hsum := keeps_leftAssociative (keeps_leftAssociative hproduct concatOp?) sumOp?
  have hnegation := keeps_remaining.bind fun n _ => keeps_negations (keeps_comparison hsum) (n + 1)
  exact keeps_leftAssociative (keeps_leftAssociative hnegation andOp?) orOp?

/-! ## Choices -/

theorem keeps_choices (hp : Keeps P operand E) (n line : Nat) {e : Expr}
    (h : E e) : Keeps P (choices operand n line e) E := by
  induction n generalizing line e with
  | zero => exact .pure h
  | succ n ih =>
      unfold choices
      refine (keeps_skipWord "if").bind fun b _ => .ite (fun _ => ?_) fun _ => .pure h
      refine hp.bind fun condition hc => (keeps_skipWord "else").bind fun b _ => ?_
      extract_lets go
      have hgo (alternative : Expr) (ha : E alternative) : Keeps P (go alternative) E :=
        keeps_hereLine.bind fun here _ => ih here (Reads.choice hc h ha line)
      refine .ite (fun _ => ?_) fun _ => (Keeps.pure Reads.absent).bind hgo
      exact keeps_lastLine.bind fun l _ => hp.bind fun v hv => (ih l hv).bind hgo

theorem keeps_choice (hp : Keeps P operand E) : Keeps P (choice operand) E :=
  keeps_lastLine.bind fun line _ => hp.bind fun _ he => keeps_remaining.bind fun n _ =>
    keeps_choices hp (n + 1) line he

/-- An expression that is no choice meets a condition that reading keeps. -/
theorem keeps_disjunction (bound depth : Nat) : Keeps P (disjunction bound depth) E := by
  induction bound generalizing depth with
  | zero => exact keeps_fail
  | succ n ih =>
      have hexpr (d : Nat) : Keeps P (guarded d (choice (disjunction n (d - 1)))) E :=
        keeps_guarded d (keeps_choice (ih (d - 1)))
      have hoperand := keeps_guarded depth (keeps_primary (hexpr (depth - 1)))
      exact keeps_disjunctionOf (hexpr depth) hoperand

/-- **An expression meets a condition that reading keeps.** -/
theorem keeps_expression (bound depth : Nat) : Keeps P (expression bound depth) E :=
  keeps_guarded depth (keeps_choice (keeps_disjunction bound (depth - 1)))

end Stencil.Template
