import Stencil.Proofs.Template.Unmarked.Evaluation
import Stencil.Proofs.Text.Html

/-!
# Plain templates print harmless texts

A plain template is made of text in which none of the five characters stands, of printed expressions, and
of loops and branches; all of its expressions are plain. Every text that it prints is harmless in a
document, whatever the variables hold: its own text is, and a value that is printed was never marked, so
it is escaped. The store stays unmarked from one statement to the next.

Main statement: `fill_harmless`.
-/

namespace Stencil.Template

open Fill Text.Html

/-! ## Plain templates -/

mutual

/-- Whether a statement is text in which none of the five characters stands, a printed expression, a loop
or a branch, with plain expressions and plain statements inside. -/
def Stmt.Plain : Stmt → Prop
  | .text content _ => Free content
  | .print e _ => e.Plain
  | .loop _ target subject only _ body otherwise _ =>
      target.Every Expr.Plain ∧ subject.Plain ∧ EveryAny Expr.Plain only ∧ PlainStmts body
        ∧ PlainStmts otherwise
  | .branch condition body otherwise _ =>
      condition.Plain ∧ PlainStmts body ∧ PlainStmts otherwise
  | _ => False

def PlainStmts : List Stmt → Prop
  | [] => True
  | s :: ss => s.Plain ∧ PlainStmts ss

end

/-! ## Telling that a template is plain -/

instance : DecidablePred Expr.PlainNode
  | .call .. | .captured => isFalse id
  | .filter id .. => inferInstanceAs (Decidable (id ∈ Filter.plainNames))
  | .name .. | .constant .. | .absent | .negation .. | .negative .. | .binary .. | .comparison .. | .choice ..
  | .test .. | .attribute .. | .item .. | .slice .. | .list .. | .map .. => isTrue trivial

mutual

/-- Whether a statement is found to be plain. Expressions are looked into down to a depth, and only loops over
single names are told to be plain. -/
def Stmt.isPlain (depth : Nat) : Stmt → Bool
  | .text content _ => decide (Free content)
  | .print e _ => e.checks Expr.PlainNode depth
  | .loop _ (.name ..) subject only _ body otherwise _ =>
      subject.checks Expr.PlainNode depth && only.all (·.checks Expr.PlainNode depth) && arePlain depth body
        && arePlain depth otherwise
  | .branch condition body otherwise _ =>
      condition.checks Expr.PlainNode depth && arePlain depth body && arePlain depth otherwise
  | _ => false

/-- Whether statements are found to be plain. -/
def arePlain (depth : Nat) : List Stmt → Bool
  | [] => true
  | s :: ss => s.isPlain depth && arePlain depth ss

end

mutual

theorem Stmt.plain_of_isPlain {depth : Nat} : ∀ s : Stmt, s.isPlain depth = true → s.Plain
  | .text .., h => (of_decide_eq_true h : Free _)
  | .print .., h => Expr.every_of_checks (n := depth) h
  | .loop _ (.name ..) _ only _ body otherwise _, h => by
      simp only [Stmt.isPlain, Bool.and_eq_true] at h
      obtain ⟨⟨⟨hsubject, honly⟩, hbody⟩, hotherwise⟩ := h
      refine ⟨trivial, Expr.every_of_checks hsubject, fun e he => Expr.every_of_checks (n := depth) ?_,
        plainStmts_of_arePlain body hbody, plainStmts_of_arePlain otherwise hotherwise⟩
      obtain rfl := he
      exact honly
  | .branch _ body otherwise _, h => by
      simp only [Stmt.isPlain, Bool.and_eq_true] at h
      obtain ⟨⟨hcondition, hbody⟩, hotherwise⟩ := h
      exact ⟨Expr.every_of_checks hcondition, plainStmts_of_arePlain body hbody,
        plainStmts_of_arePlain otherwise hotherwise⟩

theorem plainStmts_of_arePlain {depth : Nat} : ∀ ss : List Stmt, arePlain depth ss = true → PlainStmts ss
  | [], _ => trivial
  | s :: ss, h => by
      obtain ⟨hs, hss⟩ := Bool.and_eq_true_iff.mp h
      exact ⟨s.plain_of_isPlain hs, plainStmts_of_arePlain ss hss⟩

end

variable {s : Surroundings} {line : Nat}

/-! ## Printing -/

/-- **What an unmarked value prints is harmless.** -/
theorem printed_harmless {v : Value} (h : v.Unmarked) {out : List Char}
    (hout : printed .html v = .ok out) : Harmless out := by
  unfold printed at hout
  split at hout
  · cases hout
    exact harmless_nil
  · cases hout
    exact harmless_nil
  · rename_i b
    cases hout
    exact harmless_of_free (by cases b <;> simp [printedBool, Free])
  · contradiction
  · cases hout
    exact harmless_escape _

theorem keeps_evalPrint (hs : ∀ name, UnmarkedAny (s.vars name)) (hmode : s.mode = .html) {e : Expr}
    (h : e.Quiet) : Keeps (evalPrint s line e) Harmless := by
  unfold evalPrint
  split
  · -- The innermost loop is called, and no call is plain.
    exact h.node.1.elim
  · refine (evalExpr_unmarked hs e h).bind fun v hv => (keeps_view hv).bind fun w hw => ?_
    rw [hmode]
    exact keeps_lift fun out hout => printed_harmless hw hout

/-! ## Assignments -/

mutual

theorem keeps_assign (hs : ∀ name, UnmarkedAny (s.vars name)) :
    ∀ (t : Target) (v : Value), t.Every Expr.Quiet → v.Unmarked →
      Keeps (assign s v t) fun _ => True
  | .name id _, v, _, hv => by
      rw [assign]
      exact keeps_change fun _ hst => Store.assign_unmarked hst hv id
  | .attribute object name _, v, h, hv => by
      rw [assign]
      refine (evalExpr_unmarked hs object h).bind fun space _ => ?_
      split
      · exact keeps_change fun _ hst => Store.setMember_unmarked hst hv _ name
      · exact keeps_fault _
  | .parts targets _, v, h, hv => by
      intro st hst x after hx
      rw [assign] at hx
      split at hx
      · contradiction
      · contradiction
      · contradiction
      · dsimp only at hx
        split at hx
        · contradiction
        · rename_i items hitems
          split at hx
          · have hunmarked := iterate?_unmarked (Store.face_unmarked hst hv) hitems
            exact keeps_assignAll hs targets items h hunmarked st hst x after hx
          · contradiction

theorem keeps_assignAll (hs : ∀ name, UnmarkedAny (s.vars name)) :
    ∀ (ts : List Target) (vs : List Value), EveryTarget Expr.Quiet ts → UnmarkedItems vs →
      Keeps (assignAll s vs ts) fun _ => True
  | [], _, _, _ => by
      rw [assignAll]
      exact .pure trivial
  | _ :: _, [], _, _ => by
      rw [assignAll]
      exact .pure trivial
  | t :: ts, v :: vs, h, hvs => by
      rw [assignAll]
      refine (keeps_assign hs t v h.1 hvs.1).bind fun _ _ => ?_
      exact keeps_assignAll hs ts vs h.2 hvs.2

end

/-! ## Loops -/

section Loops

variable {assignItem : Value → Fill Unit}

theorem keeps_passing (ha : ∀ v : Value, v.Unmarked → Keeps (assignItem v) fun _ => True)
    {condition : Fill Bool} (hc : Keeps condition fun _ => True) (vs : List Value) {kept : List Value}
    (hvs : UnmarkedItems vs) (hkept : UnmarkedItems kept) :
    Keeps (passing assignItem condition vs kept) UnmarkedItems := by
  induction vs generalizing kept with
  | nil => exact .pure (hkept.subset fun v hv => List.mem_reverse.mp hv)
  | cons v vs ih =>
      unfold passing
      refine (ha v hvs.1).bind fun _ _ => hc.bind fun _ _ => .ite (fun _ => ?_) fun _ => ?_
      · exact ih hvs.2 ⟨hvs.1, hkept⟩
      · exact ih hvs.2 hkept

theorem keeps_changeLoop (id : Nat) {f : LoopState → LoopState}
    (hf : ∀ l : LoopState, l.Unmarked → (f l).Unmarked) :
    Keeps (changeLoop id f) fun _ => True :=
  keeps_change fun _ hst => Store.changeLoop_unmarked hst id hf

/-- What the items before printed is harmless, and so is what the next one prints. -/
theorem keeps_eachItem (ha : ∀ v : Value, v.Unmarked → Keeps (assignItem v) fun _ => True)
    {body : Fill (List Char)} (hb : Keeps body Harmless) (id : Nat) (vs : List Value)
    {printed : List (List Char)} (hvs : UnmarkedItems vs) (hp : ∀ t ∈ printed, Harmless t) :
    Keeps (eachItem assignItem body id vs printed) Harmless := by
  induction vs generalizing printed with
  | nil => exact .pure (harmless_flatten fun t ht => hp t (List.mem_reverse.mp ht))
  | cons v vs ih =>
      have hnext : (vs.head?.getD .undefined).Unmarked := by
        cases vs with
        | nil => exact trivial
        | cons w ws => exact hvs.2.1
      unfold eachItem
      refine .bind (keeps_changeLoop id fun l hl => ⟨hl.previous, hnext⟩) fun _ _ => ?_
      refine keeps_clear.bind fun _ _ => (ha v hvs.1).bind fun _ _ => hb.bind fun out hout => ?_
      refine .bind (keeps_changeLoop id fun l hl => ⟨hvs.1, hl.next⟩) fun _ _ => ?_
      exact ih hvs.2 (List.forall_mem_cons.mpr ⟨hout, hp⟩)

theorem keeps_startLoop (again length : Option Nat) :
    Keeps (startLoop line again length) fun _ => True := by
  intro st hst x after hx
  unfold startLoop at hx
  dsimp only at hx
  split at hx
  · rename_i started hs
    cases hx
    refine ⟨trivial, Store.startLoop?_unmarked hst ?_ hs⟩
    exact ⟨trivial, trivial⟩
  · contradiction

theorem keeps_endLoop : Keeps endLoop fun _ => True := keeps_change fun _ => Store.endLoop_unmarked

/-- **A loop prints harmless texts** if its body does. -/
theorem keeps_runLoop (ha : ∀ v : Value, v.Unmarked → Keeps (assignItem v) fun _ => True)
    {body : Fill (List Char)} (hb : Keeps body Harmless) (again : Option Nat) {items : List Value}
    (hitems : UnmarkedItems items) (sized : Bool) :
    Keeps (runLoop assignItem body line again items sized) Harmless := by
  refine (keeps_startLoop again _).bind fun id _ => ?_
  refine (keeps_eachItem ha hb id items hitems (List.forall_mem_nil _)).bind fun out hout => ?_
  exact keeps_endLoop.bind fun _ _ => .pure hout

end Loops

/-! ## Statements -/

mutual

/-- A plain target with unmarked constants is quiet. -/
theorem target_quiet : ∀ t : Target, t.Every Expr.Plain → t.Every Expr.Clear → t.Every Expr.Quiet
  | .name .., _, _ => trivial
  | .parts items _, hp, hc => targets_quiet items hp hc
  | .attribute .., hp, hc => hp.and hc

theorem targets_quiet :
    ∀ ts : List Target, EveryTarget Expr.Plain ts → EveryTarget Expr.Clear ts →
      EveryTarget Expr.Quiet ts
  | [], _, _ => trivial
  | t :: ts, hp, hc => ⟨target_quiet t hp.1 hc.1, targets_quiet ts hp.2 hc.2⟩

end

mutual

/-- **What a plain statement prints is harmless.** -/
theorem keeps_evalStmt (hs : ∀ name, UnmarkedAny (s.vars name)) (hmode : s.mode = .html) :
    ∀ stmt : Stmt, stmt.Plain → stmt.Every Expr.Clear → Keeps (evalStmt s stmt) Harmless
  | .text content _, h, _ => by
      rw [evalStmt]
      exact .pure (harmless_of_free h)
  | .print e line, h, hc => by
      rw [evalStmt]
      exact keeps_evalPrint hs hmode (h.and hc)
  | .loop serial target subject only recursive body otherwise line, ⟨ht, hs', ho, hb, he⟩,
      ⟨htc, hsc, hoc, hbc, hec⟩ => by
      have hassign : ∀ v : Value, v.Unmarked → Keeps (assign s v target) fun _ => True :=
        fun v => keeps_assign hs target v (target_quiet target ht htc)
      have hbody := keeps_evalStmts hs hmode body hb hbc
      have hotherwise := keeps_evalStmts hs hmode otherwise he hec
      rw [evalStmt]
      refine (evalExpr_unmarked hs subject (hs'.and hsc)).bind fun v hv => ?_
      refine (keeps_itemsOf hv).bind fun ⟨items, sized⟩ hitems => ?_
      extract_lets go
      -- The loop is run over all items, or over those that were picked.
      have hgo (r : List Value × Bool) (hr : UnmarkedItems r.1) :
          Keeps (pure r >>= go) Harmless := by
        rw [pure_bind]
        refine (keeps_runLoop hassign hbody _ hr r.2).bind fun out hout => ?_
        exact .ite (fun _ => hotherwise) fun _ => .pure hout
      cases only with
      | none => exact hgo (items, sized) hitems
      | some condition =>
          have hquiet : condition.Quiet := (ho condition rfl).and (hoc condition rfl)
          have hholds : Keeps (do truth (← evalExpr s condition)) fun _ => True :=
            (evalExpr_unmarked hs condition hquiet).bind fun v _ => keeps_truth v
          have hnone : UnmarkedItems [] := trivial
          refine .bind (keeps_enter (List.forall_mem_nil _)) fun _ _ => ?_
          refine (keeps_passing hassign hholds items hitems hnone).bind fun kept hkept => ?_
          exact keeps_leave.bind fun _ _ => hgo (kept, true) hkept
  | .branch condition body otherwise _, ⟨hc, hb, he⟩, ⟨hcc, hbc, hec⟩ => by
      rw [evalStmt]
      refine (evalExpr_unmarked hs condition (hc.and hcc)).bind fun v _ => ?_
      refine (keeps_truth v).bind fun _ _ => .ite (fun _ => ?_) fun _ => ?_
      · exact keeps_evalStmts hs hmode body hb hbc
      · exact keeps_evalStmts hs hmode otherwise he hec
  | .scope .., h, _ | .assign .., h, _ | .capture .., h, _ | .escaping .., h, _ | .filtered .., h, _
  | .block .., h, _ | .inclusion .., h, _ | .extension .., h, _ | .importation .., h, _
  | .selection .., h, _ | .define .., h, _ | .callWith .., h, _ | .perform .., h, _ => h.elim

/-- **What plain statements print is harmless.** -/
theorem keeps_evalStmts (hs : ∀ name, UnmarkedAny (s.vars name)) (hmode : s.mode = .html) :
    ∀ stmts : List Stmt, PlainStmts stmts → EveryStmt Expr.Clear stmts →
      Keeps (evalStmts s stmts) Harmless
  | [], _, _ => by
      rw [evalStmts]
      exact .pure harmless_nil
  | stmt :: stmts, h, hc => by
      rw [evalStmts]
      refine (keeps_evalStmt hs hmode stmt h.1 hc.1).bind fun out hout => ?_
      refine (keeps_evalStmts hs hmode stmts h.2 hc.2).bind fun rest hrest => ?_
      exact .pure (harmless_append hout hrest)

end

/-- **A plain template that is filled is harmless**, whatever unmarked values the variables have. -/
theorem fill_harmless {vars : String → Option Value} (hvars : ∀ name, UnmarkedAny (vars name))
    {body : List Stmt} (h : PlainStmts body) (hc : EveryStmt Expr.Clear body) {out : List Char}
    (hout : fill vars .html body = .ok out) : Harmless out := by
  unfold fill at hout
  dsimp only at hout
  split at hout
  · rename_i text st heval
    cases hout
    exact (keeps_evalStmts hvars rfl body h hc Store.start Store.unmarked_start _ st heval).1
  · contradiction

end Stencil.Template
