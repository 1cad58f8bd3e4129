import Stencil.Proofs.Template.Within
import Stencil.Template.Evaluation

/-!
# Evaluation asks only for names that the template spells

Two assignments of variables that agree on a set of names cannot be told apart by a template within the
set: they lead to the same store and the same result, be that a value, a text or a fault.

Main statement: `fill_congr`.
-/

namespace Stencil.Template

/-- The same surroundings over other variables. -/
def Surroundings.over (s : Surroundings) (vars : String → Option Value) : Surroundings :=
  { s with vars := vars }

variable {P : String → Prop} {v w : String → Option Value}

/-! ## Looking up names -/

theorem inFrame?_congr {name : String} (h : v name = w name)
    (closures : List (Nat × Members Value)) (f : Frame) :
    Store.inFrame? v closures name f = Store.inFrame? w closures name f := by
  unfold Store.inFrame?
  split
  · rfl
  · split
    · rfl
    · rw [h]

theorem lookup?_congr {name : String} (h : v name = w name) (st : Store) :
    st.lookup? v name = st.lookup? w name := by
  have hf : Store.inFrame? v st.closures name = Store.inFrame? w st.closures name :=
    funext (inFrame?_congr h st.closures)
  rw [Store.lookup?, Store.lookup?, hf]

theorem keep_congr {name : String} (h : v name = w name) (id : Nat) (st : Store) :
    Store.keep v id st name = Store.keep w id st name := by
  rw [Store.keep, Store.keep, lookup?_congr h]

theorem foldl_keep_congr {names : List String} (h : ∀ n ∈ names, v n = w n) (id : Nat)
    (st : Store) : names.foldl (Store.keep v id) st = names.foldl (Store.keep w id) st := by
  induction names generalizing st with
  | nil => rfl
  | cons n names ih =>
      rw [List.foldl_cons, List.foldl_cons, keep_congr (h n List.mem_cons_self)]
      exact ih (fun m hm => h m (List.mem_cons_of_mem _ hm)) _

theorem map_lookup?_congr {names : List (String × String)} (h : ∀ n ∈ names, v n.1 = w n.1)
    (st : Store) :
    names.map (fun n => (n.2, (st.lookup? v n.1).getD .undefined))
      = names.map fun n => (n.2, (st.lookup? w n.1).getD .undefined) :=
  List.map_congr_left fun n hn => by rw [lookup?_congr (h n hn)]

/-! ## Calls -/

theorem callNamed_over {id : String} (h : v id = w id) (s : Surroundings) (line : Nat)
    (args : List Value) : callNamed (s.over v) line id args = callNamed (s.over w) line id args := by
  unfold callNamed
  split
  · rfl
  · funext st
    have hl : st.lookup? (s.over v).vars id = st.lookup? (s.over w).vars id := lookup?_congr h st
    rw [hl]
    rfl

/-- The names that a callee may ask for. -/
theorem named_within {f : Expr} (h : f.Within P) {id : String} (hf : Callee.ofExpr f = .named id) :
    P id := by
  cases f <;> simp only [Callee.ofExpr] at hf <;> first | contradiction | skip
  obtain rfl := Callee.named.inj hf
  exact h

theorem invoke_over (hvw : ∀ id, P id → v id = w id) {f : Expr} (hf : f.Within P)
    (s : Surroundings) (line : Nat) (args : List Value) :
    invoke (s.over v) line (Callee.ofExpr f) args
      = invoke (s.over w) line (Callee.ofExpr f) args := by
  cases hc : Callee.ofExpr f with
  | named id => exact callNamed_over (hvw id (named_within hf hc)) s line args
  | method name => cases args <;> rfl
  | value => cases args <;> rfl

/-! ## Expressions -/

/-- A call puts what is called on the pile first, unless that is a block. -/
theorem evalExpr_call (s : Surroundings) (f : Expr) (args : List Arg) (start : Nat) :
    evalExpr s (.call f args start)
      = (match f.blockName? with
        | some name => callBlock s start name
        | none => do
            pushCallee s f
            let positional ← pushPositional s ⟨0, (Callee.ofExpr f).count⟩ args
            let keywords ← pushKeywords s ⟨0, 0⟩ args
            let line := lineAfterArgs (lineAfterCallee start f) args
            invoke s line (Callee.ofExpr f) (← positional.take line (keywords.when args))) := by
  rw [evalExpr]
  generalize f.blockName? = block
  cases block with
  | some name => rfl
  | none => cases f <;> simp only [pushCallee, bind_assoc, pure_bind]

mutual

theorem evalExpr_over (hvw : ∀ id, P id → v id = w id) (s : Surroundings) :
    ∀ e : Expr, e.Within P → evalExpr (s.over v) e = evalExpr (s.over w) e
  | .name id _, h => by
      funext st
      have hl : st.lookup? (s.over v).vars id = st.lookup? (s.over w).vars id :=
        lookup?_congr (hvw id h) st
      simp only [evalExpr, hl]
  | .constant .., _ | .absent, _ => by simp only [evalExpr]
  | .captured, _ => by simp only [evalExpr, Surroundings.over]
  | .negation e _, h | .negative e _, h | .attribute e _ _, h => by
      simp only [evalExpr, evalExpr_over hvw s e h]
  | .binary _ l r _, h => by
      simp only [evalExpr, evalExpr_over hvw s l h.1, evalExpr_over hvw s r h.2]
  | .comparison e others _, h => by
      simp only [evalExpr, evalExpr_over hvw s e h.1, evalRelations_over hvw s others _ h.2]
  | .choice c a b _, h => by
      simp only [evalExpr, evalExpr_over hvw s c h.1, evalExpr_over hvw s a h.2.1,
        evalExpr_over hvw s b h.2.2]
  | .filter _ e args _, h => by
      simp only [evalExpr, evalExpr_over hvw s e h.1, pushPositional_over hvw s args _ h.2,
        pushKeywords_over hvw s args _ h.2]
      rfl
  | .test _ e args _, h => by
      simp only [evalExpr, evalExpr_over hvw s e h.1, pushPositional_over hvw s args _ h.2,
        pushKeywords_over hvw s args _ h.2]
  | .item e i _, h => by
      simp only [evalExpr, evalExpr_over hvw s e h.1, evalExpr_over hvw s i h.2]
  | .slice e a b c _, ⟨he, ha, hb, hc⟩ => by
      simp only [evalExpr, evalExpr_over hvw s e he, evalExpr_over hvw s a ha,
        evalExpr_over hvw s b hb, evalExpr_over hvw s c hc]
  | .call f args start, h => by
      -- A callee that is a name is not evaluated here: the call looks it up behind its arguments.
      have hcallee : pushCallee (s.over v) f = pushCallee (s.over w) f := by
        cases f with
        | name => rfl
        | «attribute» e => simp only [pushCallee, evalExpr_over hvw s e h.1]
        | _ => simp only [pushCallee, evalExpr_over hvw s _ h.1]
      simp only [evalExpr_call, hcallee, pushPositional_over hvw s args _ h.2,
        pushKeywords_over hvw s args _ h.2, invoke_over hvw h.1]
      rfl
  | .list items _, h => by simp only [evalExpr, pushItems_over hvw s items h]
  | .map entries _, h => by simp only [evalExpr, pushEntries_over hvw s entries h]

theorem evalRelations_over (hvw : ∀ id, P id → v id = w id) (s : Surroundings) :
    ∀ (others : List (Relation × Expr)) (line : Nat), WithinOthers P others →
      evalRelations (s.over v) line others = evalRelations (s.over w) line others
  | [], _, _ => by simp only [evalRelations]
  | (_, e) :: others, _, h => by
      simp only [evalRelations, evalExpr_over hvw s e h.1, evalRelations_over hvw s others _ h.2]

theorem pushPositional_over (hvw : ∀ id, P id → v id = w id) (s : Surroundings) :
    ∀ (args : List Arg) (b : Batches), WithinArgs P args →
      pushPositional (s.over v) b args = pushPositional (s.over w) b args
  | [], _, _ => by simp only [pushPositional]
  | .positional e :: args, _, h | .splat e :: args, _, h => by
      simp only [pushPositional, evalExpr_over hvw s e h.1, pushPositional_over hvw s args _ h.2]
  | .keyword _ _ :: args, _, h | .keywords _ :: args, _, h => by
      simp only [pushPositional, pushPositional_over hvw s args _ h.2]

theorem pushKeywords_over (hvw : ∀ id, P id → v id = w id) (s : Surroundings) :
    ∀ (args : List Arg) (b : Batches), WithinArgs P args →
      pushKeywords (s.over v) b args = pushKeywords (s.over w) b args
  | [], _, _ => by simp only [pushKeywords]
  | .keyword _ e :: args, _, h | .keywords e :: args, _, h => by
      simp only [pushKeywords, evalExpr_over hvw s e h.1, pushKeywords_over hvw s args _ h.2]
  | .positional _ :: args, _, h | .splat _ :: args, _, h => by
      simp only [pushKeywords, pushKeywords_over hvw s args _ h.2]

theorem pushItems_over (hvw : ∀ id, P id → v id = w id) (s : Surroundings) :
    ∀ items : List Expr, WithinItems P items →
      pushItems (s.over v) items = pushItems (s.over w) items
  | [], _ => by simp only [pushItems]
  | e :: es, h => by
      simp only [pushItems, evalExpr_over hvw s e h.1, pushItems_over hvw s es h.2]

theorem pushEntries_over (hvw : ∀ id, P id → v id = w id) (s : Surroundings) :
    ∀ entries : List (Expr × Expr), WithinEntries P entries →
      pushEntries (s.over v) entries = pushEntries (s.over w) entries
  | [], _ => by simp only [pushEntries]
  | (k, e) :: es, h => by
      simp only [pushEntries, evalExpr_over hvw s k h.1, evalExpr_over hvw s e h.2.1,
        pushEntries_over hvw s es h.2.2]

end

theorem pushCallee_over (hvw : ∀ id, P id → v id = w id) (s : Surroundings) {f : Expr}
    (h : f.Within P) : pushCallee (s.over v) f = pushCallee (s.over w) f := by
  cases f with
  | name => rfl
  | «attribute» e => simp only [pushCallee, evalExpr_over hvw s e h]
  | _ => simp only [pushCallee, evalExpr_over hvw s _ h]

theorem evalCallWith_over (hvw : ∀ id, P id → v id = w id) (s : Surroundings) {f : Expr}
    {args : List Arg} (hf : f.Within P) (hargs : WithinArgs P args) (start : Nat)
    (body : Fill Value) :
    evalCallWith (s.over v) f args start body = evalCallWith (s.over w) f args start body := by
  simp only [evalCallWith, pushCallee_over hvw s hf, pushPositional_over hvw s args _ hargs,
    pushKeywords_over hvw s args _ hargs, invoke_over hvw hf]
  rfl

theorem evalLoopAgain_over (hvw : ∀ id, P id → v id = w id) (s : Surroundings) {arg : Arg}
    (h : WithinArgs P [arg]) (start : Nat) :
    evalLoopAgain (s.over v) arg start = evalLoopAgain (s.over w) arg start := by
  simp only [evalLoopAgain, pushPositional_over hvw s [arg] _ h, pushKeywords_over hvw s [arg] _ h]
  rfl

theorem evalPrint_over (hvw : ∀ id, P id → v id = w id) (s : Surroundings) {e : Expr}
    (h : e.Within P) (line : Nat) : evalPrint (s.over v) line e = evalPrint (s.over w) line e := by
  unfold evalPrint
  split
  · exact evalLoopAgain_over hvw s h.2 _
  · rw [evalExpr_over hvw s _ h]
    rfl

/-! ## Assignments -/

mutual

theorem assign_over (hvw : ∀ id, P id → v id = w id) (s : Surroundings) :
    ∀ (t : Target) (x : Value), t.Within P → assign (s.over v) x t = assign (s.over w) x t
  | .name _ _, _, _ => by simp only [assign]
  | .attribute object _ _, _, h => by simp only [assign, evalExpr_over hvw s object h]
  | .parts targets _, _, h => by
      simp only [assign, fun xs => assignAll_over hvw s targets xs h]

theorem assignAll_over (hvw : ∀ id, P id → v id = w id) (s : Surroundings) :
    ∀ (ts : List Target) (xs : List Value), WithinTargets P ts →
      assignAll (s.over v) xs ts = assignAll (s.over w) xs ts
  | [], _, _ => by simp only [assignAll]
  | t :: ts, [], _ => by simp only [assignAll]
  | t :: ts, x :: xs, h => by
      simp only [assignAll, assign_over hvw s t x h.1, assignAll_over hvw s ts xs h.2]

end

theorem bind_over (hvw : ∀ id, P id → v id = w id) (s : Surroundings)
    {bindings : List (Target × Expr)} (h : WithinBindings P bindings) :
    bind (s.over v) bindings = bind (s.over w) bindings := by
  induction bindings with
  | nil => rfl
  | cons b bindings ih =>
      obtain ⟨⟨ht, he⟩, hbs⟩ := List.forall_mem_cons.mp h
      have htarget : ∀ x, assign (s.over v) x b.1 = assign (s.over w) x b.1 :=
        fun x => assign_over hvw s b.1 x ht
      simp only [bind, evalExpr_over hvw s b.2 he, htarget, ih hbs]

theorem makeRoutine_over (hvw : ∀ id, P id → v id = w id) (s : Surroundings) {decl : MacroDecl}
    (h : decl.Within P) : makeRoutine (s.over v) decl = makeRoutine (s.over w) decl := by
  funext st
  have hkept : ∀ n ∈ decl.kept, v n = w n := fun n hn => hvw n (kept_within h n hn)
  have hfold : decl.kept.foldl (Store.keep (s.over v).vars st.withClosure.2) st.withClosure.1
      = decl.kept.foldl (Store.keep (s.over w).vars st.withClosure.2) st.withClosure.1 :=
    foldl_keep_congr hkept _ _
  simp only [makeRoutine, hfold]

theorem assignParams_over (hvw : ∀ id, P id → v id = w id) (s : Surroundings)
    {params : List (String × Value)} {defaults : List Expr} (h : ∀ e ∈ defaults, e.Within P) :
    assignParams (s.over v) params defaults = assignParams (s.over w) params defaults := by
  induction params generalizing defaults with
  | nil => rfl
  | cons param params ih =>
      obtain ⟨name, x⟩ := param
      have hdrop : ∀ e ∈ defaults.drop 1, e.Within P := fun e he => h e (List.mem_of_mem_drop he)
      have hrest := ih hdrop
      simp only [assignParams, hrest]
      split
      · rename_i e he
        rw [evalExpr_over hvw s e (h e (List.mem_of_mem_head? he))]
      · rfl

theorem runRoutine_over (hvw : ∀ id, P id → v id = w id) (s : Surroundings) {decl : MacroDecl}
    (h : ∀ e ∈ decl.defaults, e.Within P) (line : Nat) (body : Fill (List Char)) (r : Routine)
    (args : List Value) :
    runRoutine (s.over v) line decl body r args = runRoutine (s.over w) line decl body r args := by
  have hdefaults : ∀ e ∈ decl.defaults.reverse, e.Within P :=
    fun e he => h e (List.mem_reverse.mp he)
  funext st
  simp only [runRoutine, assignParams_over hvw s hdefaults]
  rfl

/-! ## Statements -/

mutual

theorem evalStmt_over (hvw : ∀ id, P id → v id = w id) :
    ∀ (stmt : Stmt) (s : Surroundings), stmt.Within P →
      evalStmt (s.over v) stmt = evalStmt (s.over w) stmt
  | .text .., _, _ => by simp only [evalStmt]
  | .print e line, s, h => by simp only [evalStmt, evalPrint_over hvw s h line]
  | .loop serial target subject only recursive body otherwise line, s, ⟨ht, hs, ho, hb, he⟩ => by
      have htarget : ∀ x, assign (s.over v) x target = assign (s.over w) x target :=
        fun x => assign_over hvw s target x ht
      cases only with
      | none =>
          simp only [evalStmt, evalExpr_over hvw s subject hs, htarget,
            evalStmts_over hvw body s hb, evalStmts_over hvw otherwise s he]
      | some condition =>
          simp only [evalStmt, evalExpr_over hvw s subject hs, htarget,
            evalExpr_over hvw s condition (ho condition rfl), evalStmts_over hvw body s hb,
            evalStmts_over hvw otherwise s he]
  | .branch c body otherwise _, s, ⟨hc, hb, he⟩ => by
      simp only [evalStmt, evalExpr_over hvw s c hc, evalStmts_over hvw body s hb,
        evalStmts_over hvw otherwise s he]
  | .scope bindings body _, s, h => by
      simp only [evalStmt, bind_over hvw s h.1, evalStmts_over hvw body s h.2]
  | .assign target e _, s, h => by
      simp only [evalStmt, evalExpr_over hvw s e h.2, fun x => assign_over hvw s target x h.1]
  | .capture target e body _, s, ⟨ht, he, hb⟩ => by
      -- The captured text is no part of the variables, so the surroundings that hold it are over them as well.
      have hvalue : ∀ x, evalExpr { s.over v with captured := x } e
          = evalExpr { s.over w with captured := x } e :=
        fun x => evalExpr_over hvw { s with captured := x } e he
      simp only [evalStmt, evalStmts_over hvw body s hb, hvalue,
        fun x => assign_over hvw s target x ht]
      rfl
  | .escaping e body _, s, h => by
      have hbody : ∀ mode, evalStmts { s.over v with mode := mode } body
          = evalStmts { s.over w with mode := mode } body :=
        fun mode => evalStmts_over hvw body { s with mode := mode } h.2
      simp only [evalStmt, evalExpr_over hvw s e h.1, hbody]
      rfl
  | .filtered e body _, s, h => by
      have hvalue : ∀ x, evalExpr { s.over v with captured := x } e
          = evalExpr { s.over w with captured := x } e :=
        fun x => evalExpr_over hvw { s with captured := x } e h.1
      simp only [evalStmt, evalStmts_over hvw body s h.2, hvalue]
      rfl
  | .block _ _ body _, s, h => by
      have hbody : evalStmts { s.over v with initial := (s.over v).mode } body
          = evalStmts { s.over w with initial := (s.over w).mode } body :=
        evalStmts_over hvw body { s with initial := s.mode } h
      simp only [evalStmt, hbody]
  | .inclusion e _ _, s, h | .extension e _, s, h | .perform e _, s, h => by
      simp only [evalStmt, evalExpr_over hvw s e h]
  | .importation e target _, s, h => by
      simp only [evalStmt, evalExpr_over hvw s e h.2, fun x => assign_over hvw s target x h.1]
  | .selection e names _, s, h => by
      have hfound : ∀ st : Store,
          names.map (fun n => (n.2, (st.lookup? (s.over v).vars n.1).getD .undefined))
            = names.map fun n => (n.2, (st.lookup? (s.over w).vars n.1).getD .undefined) :=
        map_lookup?_congr fun n hn => hvw n.1 (h.2 n hn)
      simp only [evalStmt, evalExpr_over hvw s e h.1, hfound]
  | .define decl, s, h => by simp only [evalStmt, makeRoutine_over hvw s h]
  | .callWith call caller _, s, h => by
      cases call with
      | call f args start =>
          simp only [evalStmt, evalCallWith_over hvw s h.1.1 h.1.2, makeRoutine_over hvw s h.2]
          rfl
      | _ => simp only [evalStmt]

theorem evalStmts_over (hvw : ∀ id, P id → v id = w id) :
    ∀ (stmts : List Stmt) (s : Surroundings), WithinStmts P stmts →
      evalStmts (s.over v) stmts = evalStmts (s.over w) stmts
  | [], _, _ => by simp only [evalStmts]
  | stmt :: stmts, s, h => by
      simp only [evalStmts, evalStmt_over hvw stmt s h.1, evalStmts_over hvw stmts s h.2]

end

/-! ## Entering from elsewhere -/

theorem findRoutine?_within {definitions : List Definition} (h : ∀ d ∈ definitions, d.Within P)
    {serial : Nat} {decl : MacroDecl} (hd : findRoutine? definitions serial = some decl) :
    decl.Within P := by
  obtain ⟨d, hm, hs⟩ := List.exists_of_findSome?_eq_some hd
  have hw := h d hm
  cases d with
  | routine found =>
      obtain ⟨-, rfl⟩ : found.serial = serial ∧ found = decl := by simpa using hs
      exact hw
  | loop | block => contradiction

theorem findBlock?_within {definitions : List Definition} (h : ∀ d ∈ definitions, d.Within P)
    {name : String} {required : Bool} {body : List Stmt}
    (hd : findBlock? definitions name = some (required, body)) : WithinStmts P body := by
  obtain ⟨d, hm, hs⟩ := List.exists_of_findSome?_eq_some hd
  have hw := h d hm
  cases d with
  | block n r found =>
      obtain ⟨-, -, rfl⟩ : n = name ∧ r = required ∧ found = body := by simpa using hs
      exact hw
  | loop | routine => contradiction

theorem findLoop?_within {definitions : List Definition} (h : ∀ d ∈ definitions, d.Within P)
    {serial : Nat} {l : LoopDecl} (hd : findLoop? definitions serial = some l) :
    l.target.Within P ∧ WithinStmts P l.body := by
  obtain ⟨d, hm, hs⟩ := List.exists_of_findSome?_eq_some hd
  have hw := h d hm
  cases d with
  | loop n target line body hasOtherwise =>
      obtain ⟨-, rfl⟩ : n = serial ∧ ⟨target, line, body, hasOtherwise⟩ = l := by simpa using hs
      exact hw
  | routine | block => contradiction

theorem defaults_within {decl : MacroDecl} (h : decl.Within P) :
    ∀ e ∈ decl.defaults, e.Within P := by
  cases decl with
  | mk => exact h.1

theorem body_within {decl : MacroDecl} (h : decl.Within P) : WithinStmts P decl.body := by
  cases decl with
  | mk => exact h.2

/-- **What is entered from elsewhere** asks for no other names. -/
theorem upTo_congr (hvw : ∀ id, P id → v id = w id) {definitions : List Definition}
    (h : ∀ d ∈ definitions, d.Within P) (n : Nat) :
    Calls.upTo v definitions n = Calls.upTo w definitions n := by
  -- On how deep calls may be nested: what a body calls is one level less deep, and so the same already.
  induction n with
  | zero => rfl
  | succ n ih =>
      simp only [Calls.upTo, ih]
      generalize Calls.upTo w definitions n = calls
      have hbody : ∀ (setting : Setting) {body : List Stmt}, WithinStmts P body →
          evalStmts ⟨setting, v, calls, .undefined⟩ body
            = evalStmts ⟨setting, w, calls, .undefined⟩ body :=
        fun setting body hb => evalStmts_over hvw body ⟨setting, w, calls, .undefined⟩ hb
      congr 1
      · -- Macros.
        funext mode line r args
        cases hd : findRoutine? definitions r.serial with
        | none => rfl
        | some decl =>
            have hdecl := findRoutine?_within h hd
            simp only [hbody _ (body_within hdecl)]
            exact runRoutine_over hvw ⟨⟨mode, mode, true⟩, w, calls, .undefined⟩
              (defaults_within hdecl) line _ r args
      · -- Loops that call themselves.
        funext setting line serial x
        cases hd : findLoop? definitions serial with
        | none => rfl
        | some l =>
            obtain ⟨ht, hb⟩ := findLoop?_within h hd
            have htarget : ∀ y, assign ⟨setting, v, calls, .undefined⟩ y l.target
                = assign ⟨setting, w, calls, .undefined⟩ y l.target :=
              fun y => assign_over hvw ⟨setting, w, calls, .undefined⟩ l.target y ht
            simp only [hbody _ hb, htarget]
      · -- Blocks. One that is required has no body of its own to run.
        funext mode line name
        cases hd : findBlock? definitions name with
        | none => rfl
        | some found =>
            obtain ⟨required, body⟩ := found
            cases required with
            | true => rfl
            | false => simp only [hbody _ (findBlock?_within h hd)]

/-- **Filling a template asks only for names that the template spells.** -/
theorem fill_congr (hvw : ∀ id, P id → v id = w id) {body : List Stmt} (h : WithinStmts P body)
    (mode : EscapeMode) : fill v mode body = fill w mode body := by
  have hbody : ∀ calls, evalStmts ⟨⟨mode, mode, false⟩, v, calls, .undefined⟩ body
      = evalStmts ⟨⟨mode, mode, false⟩, w, calls, .undefined⟩ body :=
    fun calls => evalStmts_over hvw body ⟨⟨mode, mode, false⟩, w, calls, .undefined⟩ h
  simp only [fill, upTo_congr hvw (definitionsOf_within body h), hbody]

end Stencil.Template
