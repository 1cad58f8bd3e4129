import Stencil.Proofs.Template.Parser.Expr
import Stencil.Template.Parser.Stmt

/-!
# What a parser makes of templates

A condition that holds of every expression that is read holds everywhere in a template that is read. The
cases follow the keywords: each of the readers of statements keeps to the condition, as long as the
readers that it is given for expressions and bodies do.

Main statements: `ofTokens_every`, and of the names that are sought `ofTokens_within`.
-/

namespace Stencil.Template

open Parse

variable {P : String → Prop} {E : Expr → Prop}

/-! ## Targets -/

/-- The name that is assigned to is a word as well. -/
theorem keeps_targetName : Keeps P targetName fun r => P r.1 :=
  keeps_word.bind fun _ h => .ite (fun _ => keeps_fail) fun _ => .pure h

theorem keeps_targetAttributes [Reads P E] (n : Nat) {e : Expr} (h : E e) :
    Keeps P (targetAttributes n e) E := by
  induction n generalizing e with
  | zero => exact .pure h
  | succ n ih =>
      refine (keeps_skipSign .dot).bind fun b _ => .ite (fun _ => ?_) fun _ => .pure h
      exact keeps_word.bind fun r _ => ih (Reads.attribute_iff.mpr h)

theorem keeps_dottedTarget [Reads P E] : Keeps P dottedTarget (Target.Every E) := by
  unfold dottedTarget
  refine keeps_targetName.bind fun r hr => keeps_remaining.bind fun n _ => ?_
  have hname : E (.name r.1 r.2) := Reads.name hr r.2
  refine (keeps_targetAttributes n hname).bind fun e he => ?_
  split
  · exact .pure (Reads.attribute_iff.mp he)
  · exact .pure trivial

section Targets

variable {item inner single : Parse Target}

theorem keeps_targetItems (hi : Keeps P item (Target.Every E)) (n : Nat) (isLater : Bool) :
    Keeps P (targetItems item n isLater) fun r => EveryTarget E r.1 := by
  induction n generalizing isLater with
  | zero => exact keeps_fail
  | succ n ih =>
      unfold targetItems
      refine .when (keeps_expectSign .comma) fun _ => (keeps_isNext endsTargets).bind fun b _ => ?_
      refine .ite (fun _ => .pure trivial) fun _ => hi.bind fun first hf => ?_
      refine (keeps_isSign .comma).bind fun b _ => .ite (fun _ => ?_) fun _ => ?_
      · exact (ih true).bind fun r hr => .pure ⟨hf, hr⟩
      · exact .pure ⟨hf, trivial⟩

theorem keeps_bracketable (hi : Keeps P inner (Target.Every E))
    (hs : Keeps P single (Target.Every E)) :
    Keeps P (bracketable inner single) (Target.Every E) := by
  refine (keeps_skipSign .openParen).bind fun b _ => .ite (fun _ => ?_) fun _ => hs
  exact hi.bind fun t ht => (keeps_expectSign .closeParen).bind fun _ _ => .pure ht

theorem keeps_targets (hs : Keeps P single (Target.Every E)) (n : Nat) :
    Keeps P (targets single n) (Target.Every E) := by
  induction n with
  | zero => exact keeps_fail
  | succ n ih =>
      unfold targets
      refine keeps_hereLine.bind fun line _ => ?_
      refine (keeps_targetItems (keeps_bracketable ih hs) (n + 1) false).bind fun r hr => ?_
      split
      · exact .pure hr.1
      · exact .pure hr

end Targets

theorem keeps_nameTarget : Keeps P nameTarget (Target.Every E) :=
  keeps_targetName.bind fun _ _ => .pure trivial

theorem keeps_targetAll : Keeps P targetAll (Target.Every E) :=
  keeps_remaining.bind fun n _ => keeps_targets keeps_nameTarget (n + 1)

theorem keeps_bracketedTarget : Keeps P bracketedTarget (Target.Every E) :=
  keeps_bracketable keeps_targetAll keeps_nameTarget

theorem keeps_assignedTarget [Reads P E] : Keeps P assignedTarget (Target.Every E) :=
  keeps_remaining.bind fun n _ => keeps_targets keeps_dottedTarget (n + 1)

/-! ## Statements without a body -/

/-- Readers that keep to a condition on expressions where all words in front are in a set. -/
structure StmtReaders.Keep (P : String → Prop) (E : Expr → Prop) (r : StmtReaders) : Prop where
  expr : Keeps P r.expr E
  simple : Keeps P r.simple E
  args : Keeps P r.args (EveryArg E)
  body : ∀ ends, Keeps P (r.body ends) (EveryStmt E)

variable {r : StmtReaders} {expr : Parse Expr}

theorem keeps_skipContext : Keeps P skipContext Any := by
  unfold skipContext
  refine (keeps_skipWord "with").bind fun b _ => (keeps_skipWord "without").bind fun b' _ => ?_
  exact .ite (fun _ => (keeps_expectWord "context").bind fun _ _ => keeps_pure) fun _ => keeps_pure

theorem keeps_inclusion (hr : r.Keep P E) (line : Nat) :
    Keeps P (inclusion r line) (Stmt.Every E) := by
  unfold inclusion
  refine hr.expr.bind fun name hn => keeps_skipContext.bind fun told _ => ?_
  refine (keeps_skipWord "ignore").bind fun b _ => ?_
  extract_lets go goMissing
  have hgo (optional : Bool) : Keeps P (go optional) (Stmt.Every E) := .pure hn
  have hmissing : Keeps P (goMissing ()) (Stmt.Every E) := keeps_pure.bind fun b _ => hgo b
  refine .ite (fun _ => ?_) fun _ => keeps_pure.bind fun b _ => hgo b
  refine (keeps_expectWord "missing").bind fun _ _ => ?_
  exact .ite (fun _ => keeps_skipContext.bind fun _ _ => hmissing) fun _ => hmissing

mutual

/-- An expression that is a target seeks the same names as one. -/
theorem targetOfExpr?_every [Reads P E] :
    ∀ (e : Expr) (t : Target), E e → targetOfExpr? e = some t → t.Every E
  | .name _ _, _, _, ht => by
      cases ht
      exact trivial
  | .attribute _ _ _, _, h, ht => by
      cases ht
      exact Reads.attribute_iff.mp h
  | .list items _, t, h, ht => by
      obtain ⟨ts, hts, rfl⟩ := Option.map_eq_some_iff.mp ht
      exact targetsOfExprs?_every items ts (Reads.items h) hts
  | .constant v _, t, _, ht => by
      unfold targetOfExpr? at ht
      split at ht <;> first | contradiction | (cases ht; trivial)
  | .absent, _, _, ht | .captured, _, _, ht | .negation .., _, _, ht | .negative .., _, _, ht
  | .binary .., _, _, ht | .comparison .., _, _, ht | .choice .., _, _, ht | .filter .., _, _, ht
  | .test .., _, _, ht | .item .., _, _, ht | .slice .., _, _, ht | .call .., _, _, ht
  | .map .., _, _, ht => by contradiction

theorem targetsOfExprs?_every [Reads P E] :
    ∀ (es : List Expr) (ts : List Target), (∀ e ∈ es, E e) → targetsOfExprs? es = some ts →
      EveryTarget E ts
  | [], _, _, hts => by
      cases hts
      exact trivial
  | e :: es, ts, h, hts => by
      unfold targetsOfExprs? at hts
      split at hts
      · rename_i t' ts' ht hts'
        cases hts
        obtain ⟨he, hes⟩ := List.forall_mem_cons.mp h
        exact ⟨targetOfExpr?_every e t' he ht, targetsOfExprs?_every es ts' hes hts'⟩
      · contradiction

end

theorem keeps_importation [Reads P E] (hr : r.Keep P E) (line : Nat) :
    Keeps P (importation r line) (Stmt.Every E) := by
  unfold importation
  refine hr.expr.bind fun name hn => (keeps_expectWord "as").bind fun _ _ => ?_
  refine hr.expr.bind fun e he => ?_
  split
  · exact keeps_fail
  · rename_i target ht
    have hw : target.Every E := targetOfExpr?_every e target he ht
    exact keeps_skipContext.bind fun _ _ => .pure ⟨hw, hn⟩

theorem keeps_importedNames (n : Nat) (isLater : Bool) :
    Keeps P (importedNames n isLater) fun names => ∀ m ∈ names, P m.1 := by
  induction n generalizing isLater with
  | zero => exact keeps_fail
  | succ n ih =>
      have hends : Keeps P endsImport Any := keeps_isNext _
      have hnil : Keeps P (pure []) fun names : List (String × String) => ∀ m ∈ names, P m.1 :=
        .pure (List.forall_mem_nil _)
      unfold importedNames
      refine hends.bind fun b _ => .ite (fun _ => hnil) fun _ => ?_
      refine .when (keeps_expectSign .comma) fun _ => ?_
      refine hends.bind fun b _ => .ite (fun _ => hnil) fun _ => ?_
      refine keeps_targetName.bind fun m hm => (keeps_skipWord "as").bind fun b _ => ?_
      extract_lets go
      have hgo (own : String × Nat) :
          Keeps P (go own) fun names => ∀ m ∈ names, P m.1 :=
        (ih true).bind fun more hmore => .pure (List.forall_mem_cons.mpr ⟨hm, hmore⟩)
      exact .either (keeps_targetName.mono fun _ _ => trivial) keeps_pure fun own _ => hgo own

theorem keeps_selectiveImport [Reads P E] (hr : r.Keep P E) (line : Nat) :
    Keeps P (selectiveImport r line) (Stmt.Every E) := by
  refine hr.expr.bind fun name hn => (keeps_expectWord "import").bind fun _ _ => ?_
  refine keeps_remaining.bind fun n _ => (keeps_importedNames (n + 1) false).bind fun ms hms => ?_
  exact keeps_skipContext.bind fun _ _ => .pure ⟨hn, fun m hm => Reads.name (hms m hm) line⟩

theorem keeps_callOnly (he : Keeps P expr E) : Keeps P (callOnly expr) E := by
  refine he.bind fun e he => ?_
  split
  · exact .pure he
  · exact keeps_fail

/-! ## Blocks -/

theorem keeps_takeEnd : Keeps P takeEnd Any := keeps_next.bind fun _ _ => keeps_pure

theorem keeps_bodyAfterTag (hr : r.Keep P E) (ends : List String) :
    Keeps P (bodyAfterTag r ends) (EveryStmt E) :=
  (keeps_expectSign .closeBlock).bind fun _ _ => hr.body ends

theorem keeps_loop (hr : r.Keep P E) (line : Nat) : Keeps P (loop r line) (Stmt.Every E) := by
  unfold loop
  refine (keeps_targetAll (E := E)).bind fun target ht => (keeps_expectWord "in").bind fun _ _ => ?_
  refine hr.simple.bind fun subject hs => (keeps_skipWord "if").bind fun b _ => ?_
  extract_lets go
  have hgo (only : Option Expr) (ho : EveryAny E only) : Keeps P (go only) (Stmt.Every E) := by
    refine (keeps_skipWord "recursive").bind fun recursive _ => ?_
    refine (keeps_bodyAfterTag hr _).bind fun body hb => (keeps_skipWord "else").bind fun b _ => ?_
    extract_lets goElse
    have helse (otherwise : List Stmt) (he : EveryStmt E otherwise) :
        Keeps P (goElse otherwise) (Stmt.Every E) :=
      keeps_takeEnd.bind fun _ _ => keeps_newSerial.bind fun _ _ => .pure ⟨ht, hs, ho, hb, he⟩
    exact .either (keeps_bodyAfterTag hr _) (.pure trivial) helse
  exact .either (keeps_some hr.expr) (.pure fun _ h => by contradiction) hgo

theorem keeps_branches (hr : r.Keep P E) (n line : Nat) :
    Keeps P (branches r n line) (Stmt.Every E) := by
  induction n generalizing line with
  | zero => exact keeps_fail
  | succ n ih =>
      unfold branches
      refine hr.simple.bind fun condition hc => (keeps_bodyAfterTag hr _).bind fun body hb => ?_
      have hend : Keeps P (pure (.branch condition body [] line)) (Stmt.Every E) :=
        .pure ⟨hc, hb, trivial⟩
      refine keeps_next.bind fun t? _ => ?_
      cases t? with
      | none => exact hend
      | some t =>
      refine .ite (fun _ => ?_) fun _ => .ite (fun _ => ?_) fun _ => hend
      · refine (keeps_bodyAfterTag hr _).bind fun otherwise he => ?_
        exact keeps_takeEnd.bind fun _ _ => .pure ⟨hc, hb, he⟩
      · exact (ih t.line).bind fun otherwise he => .pure ⟨hc, hb, he, trivial⟩

theorem keeps_bindings (he : Keeps P expr E) (n : Nat) (isLater : Bool) :
    Keeps P (bindings expr n isLater) fun bs => ∀ b ∈ bs, b.1.Every E ∧ E b.2 := by
  induction n generalizing isLater with
  | zero => exact keeps_fail
  | succ n ih =>
      unfold bindings
      refine (keeps_isSign .closeBlock).bind fun b _ => .ite (fun _ => ?_) fun _ => ?_
      · exact .pure (List.forall_mem_nil _)
      refine .when (keeps_expectSign .comma) fun _ => (keeps_bracketedTarget (E := E)).bind fun t ht => ?_
      refine (keeps_expectSign .assign).bind fun _ _ => he.bind fun v hv => ?_
      exact (ih true).bind fun bs hbs => .pure (List.forall_mem_cons.mpr ⟨⟨ht, hv⟩, hbs⟩)

theorem keeps_scope (hr : r.Keep P E) (line : Nat) : Keeps P (scope r line) (Stmt.Every E) := by
  refine keeps_remaining.bind fun n _ => ?_
  refine (keeps_bindings hr.expr (n + 1) false).bind fun bs hbs => ?_
  refine (keeps_bodyAfterTag hr _).bind fun body hb => ?_
  exact keeps_takeEnd.bind fun _ _ => .pure ⟨hbs, hb⟩

theorem keeps_filterChain [Reads P E] (hr : r.Keep P E) (n : Nat) (isLater : Bool) {e : Expr}
    (h : E e) : Keeps P (filterChain r n isLater e) E := by
  induction n generalizing isLater e with
  | zero => exact keeps_fail
  | succ n ih =>
      unfold filterChain
      refine (keeps_isSign .closeBlock).bind fun b _ => .ite (fun _ => ?_) fun _ => ?_
      · exact .ite (fun _ => .pure h) fun _ => keeps_fail
      refine .when (keeps_expectSign .pipe) fun _ => keeps_dottedName.bind fun m _ => ?_
      refine (keeps_isSign .openParen).bind fun b _ => ?_
      extract_lets go
      have hgo (args : List Arg) (ha : EveryArg E args) : Keeps P (go args) E :=
        ih true (Reads.filter h ha m.1 m.2)
      exact .either hr.args (.pure (List.forall_mem_nil _)) hgo

theorem keeps_bodyFilters [Reads P E] (hr : r.Keep P E) : Keeps P (bodyFilters r) E :=
  keeps_remaining.bind fun n _ => keeps_filterChain hr (n + 1) false Reads.captured

theorem keeps_moreValues (he : Keeps P expr E) (n : Nat) :
    Keeps P (moreValues expr n) fun es => ∀ e ∈ es, E e := by
  have hnil : Keeps P (pure []) fun es : List Expr => ∀ e ∈ es, E e :=
    .pure (List.forall_mem_nil _)
  induction n with
  | zero => exact keeps_fail
  | succ n ih =>
      refine (keeps_skipSign .comma).bind fun b _ => .ite (fun _ => ?_) fun _ => hnil
      refine (keeps_isSign .closeBlock).bind fun b _ => .ite (fun _ => hnil) fun _ => ?_
      exact he.bind fun e he => ih.bind fun es hes => .pure (List.forall_mem_cons.mpr ⟨he, hes⟩)

theorem keeps_assignedValue [Reads P E] (he : Keeps P expr E) : Keeps P (assignedValue expr) E := by
  refine keeps_hereLine.bind fun line _ => he.bind fun first hf => ?_
  refine (keeps_isSign .comma).bind fun b _ => .ite (fun _ => ?_) fun _ => .pure hf
  refine keeps_remaining.bind fun n _ => (keeps_moreValues he (n + 1)).bind fun more hm => ?_
  exact keeps_ended (Reads.ofItems (List.forall_mem_cons.mpr ⟨hf, hm⟩) line)

theorem keeps_assignment [Reads P E] (hr : r.Keep P E) (line : Nat) :
    Keeps P (assignment r line) (Stmt.Every E) := by
  unfold assignment
  refine (keeps_assignedTarget (E := E)).bind fun target ht => ?_
  refine (keeps_isSign .closeBlock).bind fun b _ => (keeps_isSign .pipe).bind fun b' _ => ?_
  refine .ite (fun _ => (keeps_skipSign .pipe).bind fun b _ => ?_) fun _ => ?_
  · extract_lets go
    have hgo (value : Expr) (hv : E value) : Keeps P (go value) (Stmt.Every E) :=
      (keeps_bodyAfterTag hr _).bind fun body hb => keeps_takeEnd.bind fun _ _ => .pure ⟨ht, hv, hb⟩
    exact .either (keeps_bodyFilters hr) (.pure Reads.captured) hgo
  · refine (keeps_expectSign .assign).bind fun _ _ => ?_
    exact (keeps_assignedValue hr.expr).bind fun v hv => .pure ⟨ht, hv⟩

theorem keeps_escaping (hr : r.Keep P E) (line : Nat) : Keeps P (escaping r line) (Stmt.Every E) :=
  hr.expr.bind fun _ he => (keeps_bodyAfterTag hr _).bind fun _ hb =>
    keeps_takeEnd.bind fun _ _ => .pure ⟨he, hb⟩

theorem keeps_filtered [Reads P E] (hr : r.Keep P E) (line : Nat) :
    Keeps P (filtered r line) (Stmt.Every E) :=
  (keeps_bodyFilters hr).bind fun _ he => (keeps_bodyAfterTag hr _).bind fun _ hb =>
    keeps_takeEnd.bind fun _ _ => .pure ⟨he, hb⟩

theorem keeps_nameBlock (name : String) : Keeps P (nameBlock name) Any := by
  intro c hc x d hd
  unfold nameBlock at hd
  split at hd
  · contradiction
  · cases hd
    exact ⟨trivial, hc⟩

theorem keeps_insideMacro : Keeps P insideMacro Any := by
  intro c hc x d hd
  cases hd
  exact ⟨trivial, hc⟩

theorem keeps_setInsideMacro (b : Bool) : Keeps P (setInsideMacro b) Any := by
  intro c hc x d hd
  cases hd
  exact ⟨trivial, hc⟩

theorem keeps_block (hr : r.Keep P E) (line : Nat) : Keeps P (block r line) (Stmt.Every E) := by
  unfold block
  refine keeps_insideMacro.bind fun b _ => .ite (fun _ => keeps_fail) fun _ => ?_
  refine keeps_word.bind fun m _ => (keeps_skipWord "scoped").bind fun _ _ => ?_
  refine (keeps_skipWord "required").bind fun required _ => (keeps_nameBlock m.1).bind fun _ _ => ?_
  refine (keeps_bodyAfterTag hr _).bind fun body hb => keeps_takeEnd.bind fun _ _ => ?_
  extract_lets goEnd go
  have hend : Keeps P (goEnd ()) (Stmt.Every E) := .pure hb
  have hgo : Keeps P (go ()) (Stmt.Every E) := by
    refine keeps_peek.bind fun t? _ => ?_
    split
    · exact .either keeps_takeEnd keeps_fail fun _ _ => hend
    · exact hend
  exact .ite (fun _ => keeps_fail.bind (Q := Any) fun _ _ => hgo) fun _ => hgo

/-! ## Macros -/

/-- Whether a condition holds of the defaults of parameters. -/
def Params.Every (E : Expr → Prop) (ps : Params) : Prop := ∀ e ∈ ps.defaults, E e

theorem params_every_nil {names : List String} : Params.Every E ⟨names, []⟩ :=
  List.forall_mem_nil _

theorem keeps_params (he : Keeps P expr E) (n : Nat) {ps : Params}
    (h : ps.Every E) : Keeps P (params expr n ps) (Params.Every E) := by
  induction n generalizing ps with
  | zero => exact keeps_fail
  | succ n ih =>
      unfold params
      refine (keeps_skipSign .closeParen).bind fun b _ => .ite (fun _ => .pure h) fun _ => ?_
      refine .when (keeps_expectSign .comma) fun _ => ?_
      refine (keeps_skipSign .closeParen).bind fun b _ => .ite (fun _ => .pure h) fun _ => ?_
      refine keeps_targetName.bind fun m _ => (keeps_skipSign .assign).bind fun b _ => ?_
      refine .ite (fun _ => he.bind fun d hd => ih ?_) fun _ => .ite (fun _ => ih ?_) fun _ => ?_
      · exact List.forall_mem_append.mpr ⟨h, List.forall_mem_singleton.mpr hd⟩
      · exact params_every_nil
      · exact keeps_fail

theorem keeps_macroBody (hr : r.Keep P E) (ending : String) :
    Keeps P (macroBody r ending) (EveryStmt E) := by
  refine (keeps_expectSign .closeBlock).bind fun _ _ => keeps_insideMacro.bind fun outside _ => ?_
  refine (keeps_setInsideMacro true).bind fun _ _ => (hr.body _).bind fun body hb => ?_
  exact (keeps_setInsideMacro outside).bind fun _ _ => keeps_takeEnd.bind fun _ _ => .pure hb

theorem keeps_definition (hr : r.Keep P E) (line : Nat) :
    Keeps P (definition r line) (Stmt.Every E) := by
  refine keeps_word.bind fun m _ => (keeps_expectSign .openParen).bind fun _ _ => ?_
  refine keeps_remaining.bind fun n _ => ?_
  refine (keeps_params hr.expr (n + 1) params_every_nil).bind fun ps hps => ?_
  refine (keeps_macroBody hr _).bind fun body hb => keeps_newSerial.bind fun _ _ => ?_
  exact .pure ⟨hps, hb⟩

theorem keeps_callWith (hr : r.Keep P E) (line : Nat) :
    Keeps P (callWith r line) (Stmt.Every E) := by
  unfold callWith
  refine (keeps_skipSign .openParen).bind fun b _ => ?_
  extract_lets go
  have hgo (ps : Params) (hps : ps.Every E) : Keeps P (go ps) (Stmt.Every E) :=
    (keeps_callOnly hr.expr).bind fun call hc => (keeps_macroBody hr _).bind fun body hb =>
      keeps_newSerial.bind fun _ _ => .pure ⟨hc, hps, hb⟩
  refine .ite (fun _ => keeps_remaining.bind fun n _ => ?_) fun _ => ?_
  · exact (keeps_params hr.expr (n + 1) params_every_nil).bind hgo
  · exact (Keeps.pure params_every_nil).bind hgo

/-! ## All statements -/

/-- The cases are the keywords. -/
theorem keeps_statement [Reads P E] (hr : r.Keep P E) : Keeps P (statement r) (Stmt.Every E) := by
  unfold statement
  refine keeps_word.bind fun ⟨keyword, line⟩ _ => ?_
  dsimp only
  split
  · exact keeps_loop hr _
  · exact keeps_remaining.bind fun n _ => keeps_branches hr (n + 1) _
  · exact keeps_scope hr _
  · exact keeps_assignment hr _
  · exact keeps_escaping hr _
  · exact keeps_filtered hr _
  · exact keeps_block hr _
  · exact hr.expr.bind fun e he => .pure he
  · exact keeps_inclusion hr _
  · exact keeps_importation hr _
  · exact keeps_selectiveImport hr _
  · exact keeps_definition hr _
  · exact keeps_callWith hr _
  · exact (keeps_callOnly hr.expr).bind fun e he => .pure he
  · exact keeps_fail

theorem keeps_statements {one : Parse Stmt} (ho : Keeps P one (Stmt.Every E))
    (he : Keeps P expr E) (ends : List String) (n : Nat) :
    Keeps P (statements one expr ends n) (EveryStmt E) := by
  induction n with
  | zero => exact keeps_fail
  | succ n ih =>
      unfold statements
      refine keeps_next.bind fun t? _ => ?_
      cases t? with
      | none => exact .pure trivial
      | some t =>
      dsimp only
      split
      · exact ih.bind fun more hm => .pure ⟨trivial, hm⟩
      · refine he.bind fun e hw => (keeps_expectSign .closePrint).bind fun _ _ => ?_
        exact ih.bind fun more hm => .pure ⟨hw, hm⟩
      · refine keeps_peek.bind fun k? _ => ?_
        cases k? with
        | none => exact keeps_fail
        | some k =>
        refine .ite (fun _ => .pure trivial) fun _ => ho.bind fun s hs => ?_
        refine (keeps_expectSign .closeBlock).bind fun _ _ => ?_
        exact ih.bind fun more hm => .pure ⟨hs, hm⟩
      · exact keeps_fail

theorem keeps_argumentsAt [Reads P E] (bound depth : Nat) :
    Keeps P (argumentsAt bound depth) (EveryArg E) :=
  keeps_arguments (keeps_expression bound depth)

/-- The induction is on the nesting of bodies: the readers of a level read the bodies of the next. -/
theorem keeps_bodyAt [Reads P E] (bound n depth : Nat) (ends : List String) :
    Keeps P (bodyAt bound n depth ends) (EveryStmt E) := by
  induction n generalizing depth ends with
  | zero => exact keeps_fail
  | succ n ih =>
      refine keeps_remaining.bind fun m _ => ?_
      refine keeps_statements (.ite (fun _ => keeps_fail) fun _ => ?_) (keeps_expression _ _) _ _
      exact keeps_statement
        { expr := keeps_expression _ _
          simple := keeps_disjunction _ _
          args := keeps_argumentsAt _ _
          body := ih (depth - 1) }

/-- **A condition that reading keeps** holds of every expression of a template. -/
theorem ofTokens_every [Reads P E] {ts : Tokens} (hts : ∀ t ∈ ts.tokens, t.Spells P) {body : List Stmt}
    (h : Stmt.ofTokens ts = .ok body) : EveryStmt E body := by
  unfold Stmt.ofTokens at h
  dsimp only at h
  split at h
  · rename_i b d hb
    cases h
    exact (keeps_bodyAt _ _ _ _ (Cursor.start ts) hts _ d hb).1
  · contradiction

/-- **Every name that is sought in a template is a word among its tokens.** -/
theorem ofTokens_within {ts : Tokens} (hts : ∀ t ∈ ts.tokens, t.Spells P) {body : List Stmt}
    (h : Stmt.ofTokens ts = .ok body) : WithinStmts P body := ofTokens_every hts h

end Stencil.Template
