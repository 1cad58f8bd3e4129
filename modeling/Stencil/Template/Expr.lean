import Stencil.Template.Value

/-!
# Expressions of templates

What stands between the marks of a template, as a tree. Every node carries the line it starts on; a
fault is attributed to the line that going through an expression has reached (`Expr.lineAfter`), which
is the line of the last name or constant passed.
-/

namespace Stencil.Template

/-- The relations that two values may stand in. -/
inductive Relation where
  | equal
  | unequal
  | less
  | lessEqual
  | greater
  | greaterEqual
  | isIn
  | isNotIn
  deriving DecidableEq, Repr

/-- The operators between two operands. -/
inductive BinaryOp where
  | or
  | and
  | add
  | subtract
  | concat
  | multiply
  | divide
  | floorDivide
  | remainder
  | power
  deriving DecidableEq, Repr

mutual

/-- An expression. -/
inductive Expr where
  | name (id : String) (line : Nat)
  /-- A value that needs no surroundings. -/
  | constant (value : Value) (line : Nat)
  /-- The value of a choice that has no alternative. -/
  | absent
  /-- The text that a filter of a block is applied to. -/
  | captured
  | negation (operand : Expr) (line : Nat)
  | negative (operand : Expr) (line : Nat)
  | binary (op : BinaryOp) (left right : Expr) (line : Nat)
  /-- Relations between neighbours, all of which have to hold. -/
  | comparison (first : Expr) (others : List (Relation × Expr)) (line : Nat)
  | choice (condition value alternative : Expr) (line : Nat)
  | filter (name : String) (subject : Expr) (args : List Arg) (line : Nat)
  | test (name : String) (subject : Expr) (args : List Arg) (line : Nat)
  | attribute (object : Expr) (name : String) (line : Nat)
  | item (object index : Expr) (line : Nat)
  | slice (object start stop step : Expr) (line : Nat)
  | call (callee : Expr) (args : List Arg) (line : Nat)
  | list (items : List Expr) (line : Nat)
  | map (entries : List (Expr × Expr)) (line : Nat)

/-- An argument of a call. -/
inductive Arg where
  | positional (value : Expr)
  /-- The items of a list, each as an argument. -/
  | splat (value : Expr)
  | keyword (name : String) (value : Expr)
  /-- The entries of a mapping, each as a keyword. -/
  | keywords (value : Expr)

end

instance : Inhabited Expr := ⟨.absent⟩

def Expr.constant? : Expr → Option Value
  | .constant v _ => some v
  | _ => none

/-- Whether an expression is a constant without parts. -/
def Expr.isSimple (e : Expr) : Bool := e.constant?.any fun v => v.identity.isNone

/-- Whether an argument is given by name. -/
def Arg.isNamed : Arg → Bool
  | .keyword .. | .keywords _ => true
  | _ => false

/-- Whether an argument that is given by name has to be gone through: a simple constant has
not. -/
def Arg.isOpenKeyword : Arg → Bool
  | .keyword _ e => !e.isSimple
  | .keywords _ => true
  | _ => false

/-- The block that the callee of a call names: an attribute of the name `self`. -/
def Expr.blockName? : Expr → Option String
  | .attribute (.name "self" _) block _ => some block
  | _ => none

mutual

/-- The line that going through an expression reaches, from a given line. A block that is called takes
no arguments, so those are not gone through. -/
def Expr.lineAfter (line : Nat) : Expr → Nat
  | .name _ start | .constant _ start => start
  | .absent | .captured => line
  | .negation e start | .negative e start => e.lineAfter start
  | .binary _ l r start => r.lineAfter (l.lineAfter start)
  | .comparison e others start => lineAfterOthers (e.lineAfter start) others
  | .choice c v a start => a.lineAfter (v.lineAfter (c.lineAfter start))
  | .filter _ e args start | .test _ e args start =>
      lineAfterNamed (args.any Arg.isOpenKeyword) (lineAfterPositional (e.lineAfter start) args) args
  | .attribute e _ start => e.lineAfter start
  | .item e i start => i.lineAfter (e.lineAfter start)
  | .slice e a b c start => c.lineAfter (b.lineAfter (a.lineAfter (e.lineAfter start)))
  | .call f args start =>
      if f.blockName?.isSome then start
      else
        let line := match f with
          | .name .. => start
          | _ => f.lineAfter start
        lineAfterNamed (args.any Arg.isOpenKeyword) (lineAfterPositional line args) args
  | .list items start => lineAfterItems start items
  | .map entries start => lineAfterEntries start entries

/-- The line after the operands that follow the first of a comparison. -/
def lineAfterOthers (line : Nat) : List (Relation × Expr) → Nat
  | [] => line
  | (_, e) :: others => lineAfterOthers (e.lineAfter line) others

/-- The line after the arguments that are given by position. -/
def lineAfterPositional (line : Nat) : List Arg → Nat
  | [] => line
  | .positional e :: args | .splat e :: args => lineAfterPositional (e.lineAfter line) args
  | _ :: args => lineAfterPositional line args

/-- The line after the arguments that are given by name, if these are gone through. -/
def lineAfterNamed (isOpen : Bool) (line : Nat) : List Arg → Nat
  | [] => line
  | .keyword _ e :: args | .keywords e :: args =>
      lineAfterNamed isOpen (if isOpen then e.lineAfter line else line) args
  | _ :: args => lineAfterNamed isOpen line args

def lineAfterItems (line : Nat) : List Expr → Nat
  | [] => line
  | e :: es => lineAfterItems (e.lineAfter line) es

/-- The line after the entries of a mapping. -/
def lineAfterEntries (line : Nat) : List (Expr × Expr) → Nat
  | [] => line
  | (k, v) :: es => lineAfterEntries (v.lineAfter (k.lineAfter line)) es

end

/-- The line after the callee of a call; a function that is named is not gone through. -/
def lineAfterCallee (line : Nat) (f : Expr) : Nat :=
  match f with
  | .name .. => line
  | f => f.lineAfter line

/-- The line after the arguments of a call: those by position come first, and those by name are
gone through unless all of them are simple constants. -/
def lineAfterArgs (line : Nat) (args : List Arg) : Nat :=
  lineAfterNamed (args.any Arg.isOpenKeyword) (lineAfterPositional line args) args

end Stencil.Template
