import Stencil.Template.Stmt

/-!
# Names

The names that are sought in an expression, and the free names of a macro: those that are sought in
its body and that neither its parameters nor an assignment before in the body provide. A macro keeps
the values that its free names had where it was defined. What a slice is taken of is not looked into,
so a macro does not keep it.

What is assigned inside the body of a statement counts only there, and so do the parameters of a macro
inside a macro and the body that it is handed.
-/

namespace Stencil.Template

/-! ## Names of expressions -/

mutual

def Expr.names : Expr → List String
  | .name id _ => [id]
  | .constant .. | .absent | .captured => []
  | .negation e _ | .negative e _ => e.names
  | .binary _ l r _ => l.names ++ r.names
  | .comparison e others _ => e.names ++ namesOfOthers others
  | .choice c v a _ => c.names ++ v.names ++ a.names
  | .filter _ e args _ | .test _ e args _ => e.names ++ namesOfArgs args
  | .attribute e _ _ => e.names
  | .item e i _ => e.names ++ i.names
  | .slice _ a b c _ => a.names ++ b.names ++ c.names
  | .call f args _ => f.names ++ namesOfArgs args
  | .list items _ => namesOfItems items
  | .map entries _ => namesOfEntries entries

/-- The names that are sought in the operands after the first of a comparison. -/
def namesOfOthers : List (Relation × Expr) → List String
  | [] => []
  | (_, e) :: others => e.names ++ namesOfOthers others

/-- The names that are sought in arguments. -/
def namesOfArgs : List Arg → List String
  | [] => []
  | .positional e :: args | .splat e :: args | .keyword _ e :: args | .keywords e :: args =>
      e.names ++ namesOfArgs args

/-- The names that are sought in the items of a list. -/
def namesOfItems : List Expr → List String
  | [] => []
  | e :: es => e.names ++ namesOfItems es

/-- The names that are sought in the entries of a mapping. -/
def namesOfEntries : List (Expr × Expr) → List String
  | [] => []
  | (k, v) :: es => k.names ++ v.names ++ namesOfEntries es

end

/-! ## Assigned names -/

mutual

def Target.assigned : Target → List String
  | .name id _ => [id]
  | .parts items _ => assignedBy items
  | .attribute .. => []

def assignedBy : List Target → List String
  | [] => []
  | t :: ts => t.assigned ++ assignedBy ts

end

/-- The names that are sought in the bindings of a scope and those they assign, each target before its
value. -/
def freeOfBindings (assigned : List String) :
    List (Target × Expr) → List String × List String
  | [] => ([], assigned)
  | (t, e) :: bs =>
      let here := t.assigned ++ assigned
      let (free, after) := freeOfBindings here bs
      (e.names.filter (!here.contains ·) ++ free, after)

/-! ## Free names -/

/-- The name by which a macro calls the body it is handed. -/
def bodyName : String := "caller"

mutual

/-- The free names of a statement where some names are assigned, and what is assigned after it. -/
def Stmt.free (assigned : List String) : Stmt → List String × List String
  | .text .. | .inclusion .. | .extension .. => ([], assigned)
  | .importation _ target _ => ([], target.assigned ++ assigned)
  | .selection _ names _ => ([], names.map Prod.snd ++ assigned)
  | .print e _ | .perform e _ => (e.names.filter (!assigned.contains ·), assigned)
  | .loop _ target subject only _ body otherwise _ =>
      let inLoop := "loop" :: assigned
      let inBody := target.assigned ++ inLoop
      (subject.names.filter (!inLoop.contains ·)
        ++ ((only.map Expr.names).getD []).filter (!inBody.contains ·)
        ++ (freeOf inBody body).1 ++ (freeOf assigned otherwise).1, assigned)
  | .branch c body otherwise _ =>
      (c.names.filter (!assigned.contains ·) ++ (freeOf assigned body).1
        ++ (freeOf assigned otherwise).1, assigned)
  | .scope bindings body _ =>
      let (free, inBody) := freeOfBindings assigned bindings
      (free ++ (freeOf inBody body).1, assigned)
  | .assign target e _ =>
      let after := target.assigned ++ assigned
      (e.names.filter (!after.contains ·), after)
  | .capture target _ body _ =>
      let after := target.assigned ++ assigned
      ((freeOf after body).1, after)
  | .escaping _ body _ | .filtered _ body _ => ((freeOf assigned body).1, assigned)
  | .block _ _ body _ => ((freeOf ("super" :: assigned) body).1, assigned)
  | .define decl => (decl.freeIn (bodyName :: decl.name :: assigned), decl.name :: assigned)
  | .callWith call caller _ =>
      (call.names.filter (!assigned.contains ·) ++ caller.freeIn (bodyName :: assigned), assigned)

/-- The free names of statements, and what is assigned after them. -/
def freeOf (assigned : List String) : List Stmt → List String × List String
  | [] => ([], assigned)
  | s :: ss =>
      let (free, after) := s.free assigned
      let (more, last) := freeOf after ss
      (free ++ more, last)

/-- The free names of a macro where some names are assigned. -/
def MacroDecl.freeIn (assigned : List String) : MacroDecl → List String
  | .mk _ _ params defaults body _ =>
      let inside := params ++ assigned
      (namesOfItems defaults).filter (!inside.contains ·) ++ (freeOf inside body).1

end

def MacroDecl.free (decl : MacroDecl) : List String := decl.freeIn []

/-- The names whose values a macro keeps. -/
def MacroDecl.kept (decl : MacroDecl) : List String :=
  (decl.free.filter (· != bodyName)).eraseDups

/-- Whether a macro calls the body it is handed. -/
def MacroDecl.takesBody (decl : MacroDecl) : Bool := decl.free.contains bodyName

end Stencil.Template
