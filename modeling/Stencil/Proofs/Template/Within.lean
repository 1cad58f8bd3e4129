import Stencil.Proofs.Template.Every
import Stencil.Template.Names

/-!
# Templates within a set of names

A part of a template is within a set of names when every name that is sought in it is one of them. What
an evaluation seeks later is no more than that: the names that a macro keeps (`kept_within`), and the
names in the loops, macros and blocks that are entered from elsewhere (`definitionsOf_within`).

What a target assigns is not sought, and neither are the names of attributes, arguments and filters.
-/

namespace Stencil.Template

variable {P : String → Prop}

/-! ## Expressions -/

mutual

/-- Whether all names that are sought in an expression are in a set. -/
def Expr.Within (P : String → Prop) : Expr → Prop
  | .name id _ => P id
  | .constant .. | .absent | .captured => True
  | .negation e _ | .negative e _ => e.Within P
  | .binary _ l r _ => l.Within P ∧ r.Within P
  | .comparison e others _ => e.Within P ∧ WithinOthers P others
  | .choice c v a _ => c.Within P ∧ v.Within P ∧ a.Within P
  | .filter _ e args _ | .test _ e args _ => e.Within P ∧ WithinArgs P args
  | .attribute e _ _ => e.Within P
  | .item e i _ => e.Within P ∧ i.Within P
  | .slice e a b c _ => e.Within P ∧ a.Within P ∧ b.Within P ∧ c.Within P
  | .call f args _ => f.Within P ∧ WithinArgs P args
  | .list items _ => WithinItems P items
  | .map entries _ => WithinEntries P entries

/-- Whether the operands after the first of a comparison are within a set of names. -/
def WithinOthers (P : String → Prop) : List (Relation × Expr) → Prop
  | [] => True
  | (_, e) :: others => e.Within P ∧ WithinOthers P others

/-- Whether arguments are within a set of names. -/
def WithinArgs (P : String → Prop) : List Arg → Prop
  | [] => True
  | .positional e :: args | .splat e :: args | .keyword _ e :: args | .keywords e :: args =>
      e.Within P ∧ WithinArgs P args

/-- Whether the items of a list are within a set of names. -/
def WithinItems (P : String → Prop) : List Expr → Prop
  | [] => True
  | e :: es => e.Within P ∧ WithinItems P es

/-- Whether the entries of a mapping are within a set of names. -/
def WithinEntries (P : String → Prop) : List (Expr × Expr) → Prop
  | [] => True
  | (k, v) :: es => k.Within P ∧ v.Within P ∧ WithinEntries P es

end

theorem withinArgs_cons {a : Arg} {args : List Arg} :
    WithinArgs P (a :: args) ↔ a.value.Within P ∧ WithinArgs P args := by
  cases a <;> simp only [WithinArgs, Arg.value]

theorem withinOthers_iff {others : List (Relation × Expr)} :
    WithinOthers P others ↔ ∀ o ∈ others, o.2.Within P := by
  induction others with
  | nil => simp [WithinOthers]
  | cons o others ih => simp [WithinOthers, ih]

theorem withinArgs_iff {args : List Arg} :
    WithinArgs P args ↔ ∀ a ∈ args, a.value.Within P := by
  induction args with
  | nil => simp [WithinArgs]
  | cons a args ih => simp [withinArgs_cons, ih]

theorem withinItems_iff {items : List Expr} :
    WithinItems P items ↔ ∀ e ∈ items, e.Within P := by
  induction items with
  | nil => simp [WithinItems]
  | cons e es ih => simp [WithinItems, ih]

theorem withinEntries_iff {entries : List (Expr × Expr)} :
    WithinEntries P entries ↔ ∀ e ∈ entries, e.1.Within P ∧ e.2.Within P := by
  induction entries with
  | nil => simp [WithinEntries]
  | cons e es ih => simp [WithinEntries, ih, and_assoc]

/-! ## Statements -/

/-- Whether all names that are sought in a target are in a set. -/
def Target.Within (P : String → Prop) : Target → Prop := Target.Every (Expr.Within P)

/-- Whether targets are within a set of names. -/
def WithinTargets (P : String → Prop) : List Target → Prop := EveryTarget (Expr.Within P)

/-- Whether the bindings of a scope are within a set of names. -/
def WithinBindings (P : String → Prop) (bindings : List (Target × Expr)) : Prop :=
  ∀ b ∈ bindings, b.1.Within P ∧ b.2.Within P

/-- Whether all names that are sought in a statement are in a set. -/
def Stmt.Within (P : String → Prop) : Stmt → Prop := Stmt.Every (Expr.Within P)

/-- Whether statements are within a set of names. -/
def WithinStmts (P : String → Prop) : List Stmt → Prop := EveryStmt (Expr.Within P)

/-- Whether all names that are sought in a macro are in a set. -/
def MacroDecl.Within (P : String → Prop) : MacroDecl → Prop := MacroDecl.Every (Expr.Within P)

/-- Whether a part that is entered from elsewhere is within a set of names. -/
def Definition.Within (P : String → Prop) : Definition → Prop
  | .routine decl => decl.Within P
  | .loop _ target _ body _ => target.Within P ∧ WithinStmts P body
  | .block _ _ body => WithinStmts P body

/-! ## The names of expressions -/

mutual

/-- **The names of an expression within a set are in the set.** -/
theorem names_within : ∀ e : Expr, e.Within P → ∀ id ∈ e.names, P id
  | .name _ _, h => List.forall_mem_singleton.mpr h
  | .constant .., _ | .absent, _ | .captured, _ => List.forall_mem_nil P
  | .negation e _, h | .negative e _, h | .attribute e _ _, h => names_within e h
  | .binary _ l r _, h => List.forall_mem_append.mpr ⟨names_within l h.1, names_within r h.2⟩
  | .comparison e others _, h =>
      List.forall_mem_append.mpr ⟨names_within e h.1, namesOfOthers_within others h.2⟩
  | .choice c v a _, h =>
      List.forall_mem_append.mpr
        ⟨List.forall_mem_append.mpr ⟨names_within c h.1, names_within v h.2.1⟩,
          names_within a h.2.2⟩
  | .filter _ e args _, h | .test _ e args _, h | .call e args _, h =>
      List.forall_mem_append.mpr ⟨names_within e h.1, namesOfArgs_within args h.2⟩
  | .item e i _, h => List.forall_mem_append.mpr ⟨names_within e h.1, names_within i h.2⟩
  | .slice _ a b c _, ⟨_, ha, hb, hc⟩ =>
      List.forall_mem_append.mpr
        ⟨List.forall_mem_append.mpr ⟨names_within a ha, names_within b hb⟩, names_within c hc⟩
  | .list items _, h => namesOfItems_within items h
  | .map entries _, h => namesOfEntries_within entries h

theorem namesOfOthers_within :
    ∀ others, WithinOthers P others → ∀ id ∈ namesOfOthers others, P id
  | [], _ => List.forall_mem_nil P
  | (_, e) :: others, h =>
      List.forall_mem_append.mpr ⟨names_within e h.1, namesOfOthers_within others h.2⟩

theorem namesOfArgs_within : ∀ args, WithinArgs P args → ∀ id ∈ namesOfArgs args, P id
  | [], _ => List.forall_mem_nil P
  | .positional e :: args, h | .splat e :: args, h | .keyword _ e :: args, h
  | .keywords e :: args, h =>
      List.forall_mem_append.mpr ⟨names_within e h.1, namesOfArgs_within args h.2⟩

theorem namesOfItems_within : ∀ items, WithinItems P items → ∀ id ∈ namesOfItems items, P id
  | [], _ => List.forall_mem_nil P
  | e :: es, h => List.forall_mem_append.mpr ⟨names_within e h.1, namesOfItems_within es h.2⟩

theorem namesOfEntries_within :
    ∀ entries, WithinEntries P entries → ∀ id ∈ namesOfEntries entries, P id
  | [], _ => List.forall_mem_nil P
  | (k, v) :: es, h =>
      List.forall_mem_append.mpr
        ⟨List.forall_mem_append.mpr ⟨names_within k h.1, names_within v h.2.1⟩,
          namesOfEntries_within es h.2.2⟩

end

/-! ## Free names -/

theorem forall_mem_filter {ids : List String} (h : ∀ id ∈ ids, P id) (p : String → Bool) :
    ∀ id ∈ ids.filter p, P id := fun id hm => h id (List.mem_filter.mp hm).1

theorem freeOfBindings_within {bindings : List (Target × Expr)} (assigned : List String)
    (h : WithinBindings P bindings) : ∀ id ∈ (freeOfBindings assigned bindings).1, P id := by
  induction bindings generalizing assigned with
  | nil => exact List.forall_mem_nil P
  | cons b bindings ih =>
      obtain ⟨hb, hbs⟩ := List.forall_mem_cons.mp h
      exact List.forall_mem_append.mpr
        ⟨forall_mem_filter (names_within b.2 hb.2) _, ih (b.1.assigned ++ assigned) hbs⟩

mutual

/-- The free names of a statement within a set are in the set. -/
theorem free_within :
    ∀ (s : Stmt) (assigned : List String), s.Within P → ∀ id ∈ (s.free assigned).1, P id
  | .text .., _, _ | .inclusion .., _, _ | .extension .., _, _ | .importation .., _, _
  | .selection .., _, _ => List.forall_mem_nil P
  | .print e _, _, h | .perform e _, _, h => forall_mem_filter (names_within e h) _
  | .loop _ target subject only _ body otherwise _, assigned, ⟨_, hs, ho, hb, he⟩ => by
      have honly : ∀ id ∈ (only.map Expr.names).getD [], P id := by
        cases only with
        | none => exact List.forall_mem_nil P
        | some c => exact names_within c (ho c rfl)
      exact List.forall_mem_append.mpr
        ⟨List.forall_mem_append.mpr
          ⟨List.forall_mem_append.mpr
            ⟨forall_mem_filter (names_within subject hs) _, forall_mem_filter honly _⟩,
            freeOf_within body _ hb⟩,
          freeOf_within otherwise assigned he⟩
  | .branch c body otherwise _, assigned, ⟨hc, hb, he⟩ =>
      List.forall_mem_append.mpr
        ⟨List.forall_mem_append.mpr
          ⟨forall_mem_filter (names_within c hc) _, freeOf_within body assigned hb⟩,
          freeOf_within otherwise assigned he⟩
  | .scope bindings body _, assigned, h =>
      List.forall_mem_append.mpr
        ⟨freeOfBindings_within assigned h.1, freeOf_within body _ h.2⟩
  | .assign _ e _, _, h => forall_mem_filter (names_within e h.2) _
  | .capture target _ body _, assigned, h =>
      freeOf_within body (target.assigned ++ assigned) h.2.2
  | .escaping _ body _, assigned, h | .filtered _ body _, assigned, h =>
      freeOf_within body assigned h.2
  | .block _ _ body _, assigned, h => freeOf_within body ("super" :: assigned) h
  | .define decl, assigned, h => freeIn_within decl (bodyName :: decl.name :: assigned) h
  | .callWith call caller _, assigned, h =>
      List.forall_mem_append.mpr
        ⟨forall_mem_filter (names_within call h.1) _,
          freeIn_within caller (bodyName :: assigned) h.2⟩

theorem freeOf_within :
    ∀ (ss : List Stmt) (assigned : List String), WithinStmts P ss →
      ∀ id ∈ (freeOf assigned ss).1, P id
  | [], _, _ => List.forall_mem_nil P
  | s :: ss, assigned, h =>
      List.forall_mem_append.mpr
        ⟨free_within s assigned h.1, freeOf_within ss (s.free assigned).2 h.2⟩

theorem freeIn_within :
    ∀ (decl : MacroDecl) (assigned : List String), decl.Within P →
      ∀ id ∈ decl.freeIn assigned, P id
  | .mk _ _ params defaults body _, assigned, h =>
      List.forall_mem_append.mpr
        ⟨forall_mem_filter (namesOfItems_within defaults (withinItems_iff.mpr h.1)) _,
          freeOf_within body (params ++ assigned) h.2⟩

end

/-- **The names whose values a macro keeps** are in a set that the macro is within. -/
theorem kept_within {decl : MacroDecl} (h : decl.Within P) : ∀ id ∈ decl.kept, P id := by
  intro id hid
  exact forall_mem_filter (freeIn_within decl [] h) _ id (List.mem_eraseDups.mp hid)

/-! ## What is entered from elsewhere -/

mutual

theorem definitions_within : ∀ s : Stmt, s.Within P → ∀ d ∈ s.definitions, d.Within P
  | .loop _ _ _ _ _ body otherwise _, ⟨ht, _, _, hb, he⟩ =>
      List.forall_mem_cons.mpr
        ⟨⟨ht, hb⟩, List.forall_mem_append.mpr
          ⟨definitionsOf_within body hb, definitionsOf_within otherwise he⟩⟩
  | .branch _ body otherwise _, h =>
      List.forall_mem_append.mpr
        ⟨definitionsOf_within body h.2.1, definitionsOf_within otherwise h.2.2⟩
  | .scope _ body _, h | .escaping _ body _, h | .filtered _ body _, h =>
      definitionsOf_within body h.2
  | .capture _ _ body _, h => definitionsOf_within body h.2.2
  | .block _ _ body _, h => List.forall_mem_cons.mpr ⟨h, definitionsOf_within body h⟩
  | .define decl, h => definitionsIn_within decl h
  | .callWith _ caller _, h => definitionsIn_within caller h.2
  | .text .., _ | .print .., _ | .perform .., _ | .inclusion .., _ | .extension .., _
  | .assign .., _ | .importation .., _ | .selection .., _ => List.forall_mem_nil _

/-- **Every part that is entered from elsewhere** is within a set that the statements are within. -/
theorem definitionsOf_within :
    ∀ ss : List Stmt, WithinStmts P ss → ∀ d ∈ definitionsOf ss, d.Within P
  | [], _ => List.forall_mem_nil _
  | s :: ss, h =>
      List.forall_mem_append.mpr ⟨definitions_within s h.1, definitionsOf_within ss h.2⟩

theorem definitionsIn_within :
    ∀ decl : MacroDecl, decl.Within P → ∀ d ∈ decl.definitions, d.Within P
  | .mk _ _ _ _ body _, h => List.forall_mem_cons.mpr ⟨h, definitionsOf_within body h.2⟩

end

end Stencil.Template
