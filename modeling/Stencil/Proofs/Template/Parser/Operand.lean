import Stencil.Proofs.Template.Form
import Stencil.Proofs.Template.Parser.Yields
import Stencil.Template.Parser.Expr

/-!
# What a parser makes of a reference

An operand that stands alone between two marks passes through all levels of expressions unchanged: the token
behind it is none that any level goes on with (`yields_expression`). So a reference is read as the attributes and
items that it is written as, from the first step to the last, and the filters behind it are around it in order.

Main statement: `yields_reference`.
-/

namespace Stencil.Template

open Parse

/-! ## Expressions of references -/

/-- Whether an expression is a variable with the members of some names on the way. -/
inductive Expr.Refers (root : String) : List String → Expr → Prop
  | name (line : Nat) : Refers root [] (.name root line)
  | dotted {names : List String} {e : Expr} (h : Refers root names e) (name : String) (line : Nat) :
      Refers root (names ++ [name]) (.attribute e name line)
  | quoted {names : List String} {e : Expr} (h : Refers root names e) (key : String) (line line' : Nat) :
      Refers root (names ++ [key]) (.item e (.constant (.text key) line) line')

/-- Whether an expression is one that meets a condition, with filters around it. -/
inductive Expr.Pipes (E : Expr → Prop) : List String → Expr → Prop
  | nil {e : Expr} (h : E e) : Pipes E [] e
  | filter {filters : List String} {e : Expr} (h : Pipes E filters e) (name : String) (line : Nat) :
      Pipes E (filters ++ [name]) (.filter name e [] line)

theorem Expr.of_pipes_nil {E : Expr → Prop} {e : Expr} (h : Pipes E [] e) : E e := by
  generalize hnil : ([] : List String) = filters at h
  cases h with
  | nil h => exact h
  | filter _ _ _ => simp at hnil

/-- The last filter is the outermost. -/
theorem Expr.of_pipes_concat {E : Expr → Prop} (filters : List String) {name : String} {e : Expr}
    (h : Pipes E (filters ++ [name]) e) : ∃ e' line, Pipes E filters e' ∧ e = .filter name e' [] line := by
  generalize hconcat : filters ++ [name] = all at h
  cases h with
  | nil h => simp at hconcat
  | filter h last line =>
      obtain ⟨rfl, hlast⟩ := List.append_inj' hconcat rfl
      obtain rfl : name = last := List.singleton_inj.mp hlast
      exact ⟨_, line, h, rfl⟩

variable {ts rest : List Token} {s t : Token} {E : Expr → Prop} {Q : Expr → Prop} {operand : Parse Expr}
  {nested : Nested} {n depth line : Nat} {e : Expr}

/-! ## The ends of operands and expressions -/

/-- Whether an operand goes on with a token. -/
def Token.continuesOperand : Token → Bool
  | .dot | .openBracket | .openParen => true
  | _ => false

/-- Whether a token is one that no expression goes on with. -/
def Token.endsExpr : Token → Bool
  | .closePrint | .closeBlock | .closeParen | .closeBracket | .closeBrace | .comma | .colon | .assign => true
  | _ => false

theorem yields_postfixes_end (ht : t.continuesOperand = false) (he : E e) :
    Yields (t :: rest) (postfixes nested n line e) E (t :: rest) := by
  obtain ⟨hdot, hbracket, hparen⟩ :
      t.isSign .dot = false ∧ t.isSign .openBracket = false ∧ t.isSign .openParen = false := by
    cases t <;> first | exact ⟨rfl, rfl, rfl⟩ | contradiction
  cases n with
  | zero => exact .pure he
  | succ n =>
      refine yields_hereLine.bind fun here _ => ?_
      refine (yields_skipSign_of_not hdot).known ?_
      refine (yields_skipSign_of_not hbracket).known ?_
      refine yields_isSign.known ?_
      rw [hparen]
      exact .pure he

/-- A token that ends an expression goes on with none of its levels. -/
theorem of_endsExpr (h : t.endsExpr = true) :
    t.continuesOperand = false ∧ t.isSign .pipe = false ∧ (∀ s, t.isName s = false) ∧ powerOp? t = none
      ∧ productOp? t = none ∧ concatOp? t = none ∧ sumOp? t = none ∧ relation? t = none ∧ andOp? t = none
      ∧ orOp? t = none := by
  cases t <;> first | exact ⟨rfl, rfl, fun _ => rfl, rfl, rfl, rfl, rfl, rfl, rfl, rfl⟩ | contradiction

/-! ## Levels that an operand passes through -/

theorem yields_leftAssociative {op? : Token → Option BinaryOp} (hop : op? t = none)
    (h : Yields ts operand Q (t :: rest)) : Yields ts (leftAssociative operand op?) Q (t :: rest) := by
  refine yields_hereLine.bind fun line _ => h.bind fun e he => yields_remaining.known ?_
  refine yields_peek.bind fun t? ht => ?_
  obtain ⟨line, rfl⟩ := ht
  simp only [Option.bind_some, hop]
  exact .pure he

theorem yields_comparison (hnot : t.isName "not" = false) (hrelation : relation? t = none)
    (h : Yields ts operand Q (t :: rest)) : Yields ts (comparison operand) Q (t :: rest) := by
  refine yields_lastLine.bind fun line _ => h.bind fun e he => yields_remaining.known ?_
  have hrelations : Yields (t :: rest) (relations operand ((t :: rest).length + 1)) (· = []) (t :: rest) := by
    refine (yields_skipWord_of_not hnot).known ?_
    refine yields_peek.bind fun t? ht => ?_
    obtain ⟨line, rfl⟩ := ht
    simp only [Option.bind_some, hrelation]
    exact .pure rfl
  exact hrelations.known (.pure he)

theorem yields_negations (hnot : s.isName "not" = false) (h : Yields (s :: ts) operand Q rest) :
    Yields (s :: ts) (negations operand (n + 1)) Q rest := by
  refine yields_hereLine.bind fun line _ => (yields_skipWord_of_not hnot).known ?_
  exact h

theorem yields_choice (hif : t.isName "if" = false) (h : Yields ts operand Q (t :: rest)) :
    Yields ts (choice operand) Q (t :: rest) := by
  refine yields_lastLine.bind fun line _ => h.bind fun e he => yields_remaining.known ?_
  refine (yields_skipWord_of_not hif).known ?_
  exact .pure he

theorem yields_disjunctionOf (hnot : s.isName "not" = false) (ht : t.endsExpr = true)
    (h : Yields (s :: ts) (unary nested operand) Q (t :: rest)) :
    Yields (s :: ts) (disjunctionOf nested operand) Q (t :: rest) := by
  obtain ⟨-, -, hname, hpower, hproduct, hconcat, hsum, hrelation, hand, hor⟩ := of_endsExpr ht
  have hterm := yields_leftAssociative hconcat (yields_leftAssociative hproduct (yields_leftAssociative hpower h))
  have hcomparison := yields_comparison (hname "not") hrelation (yields_leftAssociative hsum hterm)
  refine yields_leftAssociative hor (yields_leftAssociative hand ?_)
  exact yields_remaining.known (yields_negations hnot hcomparison)

/-- Reads what stands where an operand may, at a depth of nesting. -/
def operandAt (n depth : Nat) : Parse Expr := guarded depth (primary (expression n (depth - 1)))

/-- The readers of what is nested in an operand. -/
def nestedAt (n depth : Nat) : Nested := ⟨expression n (depth - 1), expression n depth⟩

/-- **An operand that stands alone** is an expression. -/
theorem yields_expression (hnot : s.isName "not" = false) (ht : t.endsExpr = true)
    (h : Yields (s :: ts) (unary (nestedAt n depth) (operandAt n depth)) Q (t :: rest)) :
    Yields (s :: ts) (expression (n + 1) (depth + 1)) Q (t :: rest) := by
  have hif := (of_endsExpr ht).2.2.1 "if"
  exact yields_choice hif (yields_disjunctionOf hnot ht h)

/-! ## Operands -/

theorem yields_signed (hsign : s.isSign .minus = false) (h : Yields (s :: ts) operand Q rest) :
    Yields (s :: ts) (signed operand (n + 1)) Q rest := by
  refine yields_hereLine.bind fun line _ => (yields_skipSign_of_not hsign).known ?_
  exact h

/-- An operand and what goes on behind it. -/
theorem yields_signedPostfix {mid : List Token} (hsign : s.isSign .minus = false)
    (h : Yields (s :: ts) operand E mid)
    (hmore : ∀ line e, E e → Yields mid (postfixes nested (mid.length + 1) line e) Q rest) :
    Yields (s :: ts) (signedPostfix nested operand) Q rest := by
  refine yields_hereLine.bind fun line _ => yields_remaining.known ?_
  exact (yields_signed hsign h).bind fun e he => yields_remaining.known (hmore line e he)

theorem yields_variable {root : String} (h : root ∉ fixedWords) (expr : Parse Expr) :
    Yields (.name root :: ts) (primary expr) (Expr.Refers root []) ts := by
  refine yields_require.bind fun p hp => ?_
  rw [hp]
  have hword (line : Nat) : wordOperand root line = .name root line := by
    simp only [fixedWords, List.mem_cons, List.not_mem_nil, or_false, not_or] at h
    simp [wordOperand, h]
  dsimp only
  rw [hword]
  exact .pure (.name _)

def IsText (s : String) (e : Expr) : Prop := ∃ line, e = .constant (.text s) line

/-- A string that no other follows. -/
theorem yields_string {key : String} (ht : isString t = false) (expr : Parse Expr) :
    Yields (.string key true :: t :: rest) (primary expr) (IsText key) (t :: rest) := by
  refine yields_require.bind fun p hp => ?_
  rw [hp]
  have hstands : Yields (t :: rest) (stringFrom key true) (· = key) (t :: rest) := by
    have hpeek : Yields (t :: rest) ((fun t? : Option Placed => !t?.any (isString ·.token)) <$> peekFaultless)
        (· = true) (t :: rest) := by
      refine yields_peekFaultless.map fun t? h => ?_
      obtain ⟨line, rfl⟩ := h
      simp [ht]
    exact hpeek.known (.pure rfl)
  exact hstands.known (.pure ⟨_, rfl⟩)

/-! ## Filters -/

theorem yields_dottedName {name : String} (h : t.isSign .dot = false) :
    Yields (.name name :: t :: rest) dottedName (fun r => r.1 = name) (t :: rest) := by
  refine yields_word.bind fun r hr => yields_remaining.known ?_
  obtain ⟨w, line⟩ := r
  obtain rfl : w = name := hr
  have hrest : Yields (t :: rest) (dottedRest (t :: rest).length w) (· = w) (t :: rest) := by
    refine (yields_skipSign_of_not h).known ?_
    exact .pure rfl
  exact hrest.known (.pure rfl)

/-- No filter follows in front of a token that ends an expression. -/
theorem yields_filters_end (ht : t.endsExpr = true) (he : E e) :
    Yields (t :: rest) (Template.filters nested operand n e) E (t :: rest) := by
  obtain ⟨-, hpipe, hname, -⟩ := of_endsExpr ht
  cases n with
  | zero => exact .pure he
  | succ n =>
      refine (yields_skipSign_of_not hpipe).known ?_
      refine (yields_skipWord_of_not (hname "is")).known ?_
      exact .pure he

/-- A filter is read with its arguments, around what was read before. -/
theorem yields_filters_cons {name : String} {mid more : List Token} {A : List Arg → Prop}
    (hdot : s.isSign .dot = false) (hargs : Yields (s :: more) (optionalArguments nested) A mid)
    (hmore : ∀ args line, A args →
      Yields mid (Template.filters nested operand n (.filter name e args line)) Q rest) :
    Yields (.pipe :: .name name :: s :: more) (Template.filters nested operand (n + 1) e) Q rest := by
  refine (yields_skipSign (t := .pipe) rfl).known ?_
  refine (yields_dottedName hdot).bind fun r hr => ?_
  obtain ⟨w, line⟩ := r
  obtain rfl : w = name := hr
  exact hargs.bind fun args hargs => hmore args line hargs

theorem yields_optionalArguments_of_not (hparen : s.isSign .openParen = false) :
    Yields (s :: ts) (optionalArguments nested) (· = []) (s :: ts) := by
  refine yields_isSign.known ?_
  rw [hparen]
  exact .pure rfl

/-- **Filters are read in order**, each around what was read before. -/
theorem yields_filters (ht : t.endsExpr = true) (filters : List String) {done : List String}
    (hn : filters.length ≤ n) (he : Expr.Pipes E done e) :
    Yields (pipeTokens filters ++ t :: rest) (Template.filters nested operand n e)
      (Expr.Pipes E (done ++ filters)) (t :: rest) := by
  induction filters generalizing n done e with
  | nil =>
      rw [List.append_nil]
      exact yields_filters_end ht he
  | cons name filters ih =>
      obtain ⟨n, rfl⟩ : ∃ m, n = m + 1 := ⟨n - 1, by simp only [List.length_cons] at hn; omega⟩
      -- The next token is another pipe or the end, and neither belongs to the filter.
      obtain ⟨u, more, hmore, hdot, hparen⟩ : ∃ u more, pipeTokens filters ++ t :: rest = u :: more
          ∧ u.isSign .dot = false ∧ u.isSign .openParen = false := by
        cases filters with
        | nil => exact ⟨t, rest, rfl, by cases t <;> first | rfl | contradiction,
            by cases t <;> first | rfl | contradiction⟩
        | cons f filters => exact ⟨.pipe, _, rfl, rfl, rfl⟩
      have hrest (line : Nat) := ih (Nat.le_of_succ_le_succ hn) (he.filter name line)
      rw [List.append_assoc, List.singleton_append] at hrest
      show Yields (.pipe :: .name name :: (pipeTokens filters ++ t :: rest)) _ _ _
      rw [hmore] at hrest ⊢
      refine yields_filters_cons hdot (yields_optionalArguments_of_not hparen) ?_
      rintro _ line rfl
      exact hrest line

/-! ## Members -/

/-- Whether a parser reads a key in front of a closing bracket. -/
def ReadsKeys (outer : Parse Expr) : Prop :=
  ∀ key rest, Yields (.string key true :: .closeBracket :: rest) outer (IsText key) (.closeBracket :: rest)

theorem yields_subscript (houter : ReadsKeys nested.outer) {key : String} :
    Yields (.string key true :: .closeBracket :: rest) (subscript nested e line)
      (fun x => ∃ l, x = .item e (.constant (.text key) l) line) rest := by
  refine yields_isSign.known ?_
  extract_lets reached go
  have hgo : ∀ start, (∃ l, start = some (.constant (.text key) l)) →
      Yields (.closeBracket :: rest) (go start) (fun x => ∃ l, x = .item e (.constant (.text key) l) line) rest := by
    rintro _ ⟨l, rfl⟩
    refine (yields_skipSign_of_not rfl).known ?_
    exact (yields_expectSign rfl).bind fun _ _ => .pure ⟨l, rfl⟩
  have hstart : Yields (.string key true :: .closeBracket :: rest) (some <$> nested.outer)
      (fun start => ∃ l, start = some (.constant (.text key) l)) (.closeBracket :: rest) :=
    (houter key rest).map fun _ ⟨l, h⟩ => ⟨l, congrArg some h⟩
  exact hstart.bind hgo

/-- **Steps are read in order**, each from what was read before. -/
theorem yields_postfixes (houter : ReadsKeys nested.outer) (ht : t.continuesOperand = false) {root : String}
    {accesses : List Access} {names : List String} (hn : accesses.length ≤ n) (he : Expr.Refers root names e) :
    Yields (accesses.flatMap Access.tokens ++ t :: rest) (postfixes nested n line e)
      (Expr.Refers root (names ++ accesses.map Access.name)) (t :: rest) := by
  induction accesses generalizing n names line e with
  | nil =>
      rw [List.map_nil, List.append_nil]
      exact yields_postfixes_end ht he
  | cons a accesses ih =>
      obtain ⟨n, rfl⟩ : ∃ m, n = m + 1 := ⟨n - 1, by simp only [List.length_cons] at hn; omega⟩
      have hlen : accesses.length ≤ n := Nat.le_of_succ_le_succ hn
      have hnames : names ++ (a :: accesses).map Access.name = (names ++ [a.name]) ++ accesses.map Access.name := by
        rw [List.map_cons, List.append_assoc, List.singleton_append]
      rw [hnames]
      refine yields_hereLine.bind fun here _ => ?_
      cases a with
      | dotted name hname =>
          refine (yields_skipSign (t := .dot) rfl).known ?_
          refine yields_require.bind fun p hp => ?_
          rw [hp]
          exact ih hlen (he.dotted name line)
      | quoted key hkey =>
          refine (yields_skipSign_of_not (t := .openBracket) rfl).known ?_
          refine (yields_skipSign (t := .openBracket) rfl).known ?_
          refine (yields_subscript houter).bind fun x hx => ?_
          obtain ⟨l, rfl⟩ := hx
          exact ih hlen (he.quoted key l line)

/-! ## Whole expressions -/

theorem yields_guarded (hdepth : 0 < depth) (h : Yields ts operand Q rest) :
    Yields ts (guarded depth operand) Q rest := by
  rw [guarded, if_neg (Nat.ne_of_gt hdepth)]
  exact h

/-- An operand of one token is an expression in front of a token that ends it. -/
theorem yields_lone (hnot : s.isName "not" = false) (hminus : s.isSign .minus = false)
    (ht : t.endsExpr = true) (h : Yields (s :: t :: rest) (operandAt n depth) E (t :: rest)) :
    Yields (s :: t :: rest) (expression (n + 1) (depth + 1)) E (t :: rest) := by
  have hoperand : Yields (s :: t :: rest) (signedPostfix (nestedAt n depth) (operandAt n depth)) E (t :: rest) :=
    yields_signedPostfix hminus h fun line e he => yields_postfixes_end (of_endsExpr ht).1 he
  refine yields_expression hnot ht (hoperand.bind fun e he => ?_)
  exact yields_remaining.known (yields_filters_end ht he)

theorem readsKeys_expression (hdepth : 0 < depth) : ReadsKeys (expression (n + 1) (depth + 1)) :=
  fun _ _ => yields_lone rfl rfl rfl (yields_guarded hdepth (yields_string rfl _))

/-- The word of a variable is none that the reader of an operand takes for something else. -/
theorem isName_root (r : Reference) : (Token.name r.root).isName "not" = false := by
  obtain ⟨-, hfixed, -⟩ := of_isVariable r.isVariable
  refine beq_eq_false_iff_ne.mpr fun h => hfixed ?_
  rw [h]
  decide

/-- **What a reference is read as**, in front of a token that no operand goes on with. -/
theorem yields_steps (r : Reference) (rest : List Token) (ht : t.continuesOperand = false)
    (hdepth : 0 < depth) :
    Yields (r.tokens ++ t :: rest)
      (signedPostfix (nestedAt (n + 1) (depth + 1)) (operandAt (n + 1) (depth + 1)))
      (Expr.Refers r.root r.names) (t :: rest) := by
  obtain ⟨-, hfixed, -⟩ := of_isVariable r.isVariable
  have hoperand : Yields (.name r.root :: (r.accesses.flatMap Access.tokens ++ t :: rest))
      (operandAt (n + 1) (depth + 1)) (Expr.Refers r.root [])
      (r.accesses.flatMap Access.tokens ++ t :: rest) :=
    yields_guarded (Nat.succ_pos _) (yields_variable hfixed _)
  refine yields_signedPostfix rfl hoperand fun line e he => ?_
  have hlen := length_le_flatMap (l := r.accesses) Access.tokens_length_pos
  refine yields_postfixes (readsKeys_expression hdepth) ht ?_ he
  rw [List.length_append]
  omega

/-- **What a reference with filters is read as**, in front of a token that ends it. -/
theorem yields_reference (r : Reference) (filters : List String) (ht : t.endsExpr = true)
    (hdepth : 0 < depth) :
    Yields (r.tokens ++ (pipeTokens filters ++ t :: rest)) (expression (n + 2) (depth + 2))
      (Expr.Pipes (Expr.Refers r.root r.names) filters) (t :: rest) := by
  -- The steps end in front of a pipe or of the end.
  obtain ⟨u, more, hmore, hu⟩ : ∃ u more, pipeTokens filters ++ t :: rest = u :: more
      ∧ u.continuesOperand = false := by
    cases filters with
    | nil => exact ⟨t, rest, rfl, (of_endsExpr ht).1⟩
    | cons f filters => exact ⟨.pipe, _, rfl, rfl⟩
  have hsteps := yields_steps (n := n) r more hu hdepth
  rw [← hmore] at hsteps
  refine yields_expression (isName_root r) ht (hsteps.bind fun e he => ?_)
  have hlen := length_le_flatMap (l := filters) (f := fun f => [Token.pipe, .name f]) fun _ => by simp
  refine yields_remaining.known (yields_filters ht filters ?_ (.nil he))
  rw [List.length_append]
  exact Nat.le_succ_of_le (Nat.le_add_right_of_le hlen)

end Stencil.Template
