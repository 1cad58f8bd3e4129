import Stencil.Template.Expr

/-!
# Statements of templates

A template is a list of statements. Text stands for itself, an expression is printed, and everything
else is a block with a keyword. Every statement carries the line it starts on.

Loops and macros are entered again from elsewhere, so each has a number that no other has in its
template: a value refers to a loop or a macro by that number, and `Stmt.definitions` finds it again.
-/

namespace Stencil.Template

/-- What a value is given to: a name, the parts of a list, or an attribute. -/
inductive Target where
  | name (id : String) (line : Nat)
  | parts (items : List Target) (line : Nat)
  | attribute (object : Expr) (name : String) (line : Nat)

def Target.line : Target → Nat
  | .name _ line | .parts _ line | .attribute _ _ line => line

mutual

/-- A statement. -/
inductive Stmt where
  | text (content : List Char) (line : Nat)
  | print (value : Expr) (line : Nat)
  | loop (serial : Nat) (target : Target) (subject : Expr) (only : Option Expr) (recursive : Bool)
      (body otherwise : List Stmt) (line : Nat)
  | branch (condition : Expr) (body otherwise : List Stmt) (line : Nat)
  | scope (bindings : List (Target × Expr)) (body : List Stmt) (line : Nat)
  | assign (target : Target) (value : Expr) (line : Nat)
  /-- Keeps what a body prints, passed through filters. -/
  | capture (target : Target) (value : Expr) (body : List Stmt) (line : Nat)
  | escaping (mode : Expr) (body : List Stmt) (line : Nat)
  /-- Prints what a body prints, passed through filters. -/
  | filtered (value : Expr) (body : List Stmt) (line : Nat)
  /-- A block with a name. One that is required is left to another template to fill. -/
  | block (name : String) (required : Bool) (body : List Stmt) (line : Nat)
  | inclusion (name : Expr) (optional : Bool) (line : Nat)
  | extension (name : Expr) (line : Nat)
  /-- Gives what another template exports to a target. -/
  | importation (name : Expr) (target : Target) (line : Nat)
  /-- Gives some of the names of another template to names of their own. -/
  | selection (name : Expr) (names : List (String × String)) (line : Nat)
  | define (decl : MacroDecl)
  | callWith (call : Expr) (caller : MacroDecl) (line : Nat)
  | perform (call : Expr) (line : Nat)

/-- A macro: statements with parameters. Defaults belong to the last parameters. -/
inductive MacroDecl where
  | mk (serial : Nat) (name : String) (params : List String) (defaults : List Expr)
      (body : List Stmt) (line : Nat)

end

instance : Inhabited Stmt := ⟨.text [] 0⟩

def MacroDecl.serial : MacroDecl → Nat
  | .mk serial _ _ _ _ _ => serial

def MacroDecl.name : MacroDecl → String
  | .mk _ name _ _ _ _ => name

def MacroDecl.params : MacroDecl → List String
  | .mk _ _ params _ _ _ => params

/-- The defaults of the last parameters. -/
def MacroDecl.defaults : MacroDecl → List Expr
  | .mk _ _ _ defaults _ _ => defaults

def MacroDecl.body : MacroDecl → List Stmt
  | .mk _ _ _ _ body _ => body

def MacroDecl.line : MacroDecl → Nat
  | .mk _ _ _ _ _ line => line

/-! ## What is entered from elsewhere -/

/-- A part of a template that is entered from elsewhere. Of a loop it is also told whether it has an
alternative for when there are no items. -/
inductive Definition where
  | routine (decl : MacroDecl)
  | loop (serial : Nat) (target : Target) (line : Nat) (body : List Stmt) (hasOtherwise : Bool)
  | block (name : String) (required : Bool) (body : List Stmt)

/-- The line that has been reached when the items of a loop are gone through. -/
def loopLine (subject : Expr) (only : Option Expr) (line : Nat) : Nat :=
  match only with
  | none => subject.lineAfter line
  | some condition => condition.lineAfter (subject.lineAfter line)

mutual

/-- The loops, macros and blocks of a statement, with those inside of them. -/
def Stmt.definitions : Stmt → List Definition
  | .loop serial target subject only _ body otherwise line =>
      .loop serial target (loopLine subject only line) body (!otherwise.isEmpty)
        :: (definitionsOf body ++ definitionsOf otherwise)
  | .branch _ body otherwise _ => definitionsOf body ++ definitionsOf otherwise
  | .scope _ body _ | .capture _ _ body _ | .escaping _ body _ | .filtered _ body _ =>
      definitionsOf body
  | .block name required body _ => .block name required body :: definitionsOf body
  | .define decl => decl.definitions
  | .callWith _ caller _ => caller.definitions
  | _ => []

/-- The loops, macros and blocks of statements. -/
def definitionsOf : List Stmt → List Definition
  | [] => []
  | s :: ss => s.definitions ++ definitionsOf ss

def MacroDecl.definitions : MacroDecl → List Definition
  | .mk serial name params defaults body line =>
      .routine (.mk serial name params defaults body line) :: definitionsOf body

end

end Stencil.Template
