import Stencil.Template.Expr
import Stencil.Template.Value.Access

/-!
# Constants

What the operators and relations of expressions do to values, and the expressions that are known from
it before a template is filled: an operation on constants that succeeds is a constant itself. It stands
on the line that the operation starts on. An operation that fails is left to be performed.
-/

namespace Stencil.Template

/-! ## Operators and relations -/

/-- The value of an operator whose operands are both known. Of two known values `or` is the one that
decides, and so is `and` when it holds; when it does not hold it is false, whichever value decides. Where
the second operand may be left unevaluated, both have the value that decides. -/
def applyOperator (op : BinaryOp) (a b : Value) : Except Cause Value :=
  match op with
  | .or => .ok (if a.isTrue then a else b)
  | .and => .ok (if a.isTrue && b.isTrue then b else .bool false)
  | .add => add a b
  | .subtract => subtract a b
  | .concat => .ok (concat a b)
  | .multiply => multiply a b
  | .divide => divide a b
  | .floorDivide => floorDivide a b
  | .remainder => remainder a b
  | .power => power a b

/-- Whether two values stand in a relation. -/
def Relation.relates (r : Relation) (a b : Value) : Except Cause Bool :=
  match r with
  | .equal => .ok (a.equals b)
  | .unequal => .ok (!a.equals b)
  | .less => .ok (a.compare b == .lt)
  | .lessEqual => .ok (a.compare b != .gt)
  | .greater => .ok (a.compare b == .gt)
  | .greaterEqual => .ok (a.compare b != .lt)
  | .isIn => holds b a
  | .isNotIn => (holds b a).map (!·)

/-- Keys and values that follow each other in turn as the entries of a mapping. -/
def pairedEntries : List Value → List (Value × Value)
  | k :: v :: rest => (k, v) :: pairedEntries rest
  | _ => []

/-- Entries as those of a mapping, where of several with one key the last stands. -/
def distinctEntries (entries : List (Value × Value)) : List (Value × Value) :=
  entries.foldl (fun made e => insertEntry made e.1 e.2) []

/-! ## Expressions -/

namespace Expr

/-- An expression, or the constant that it is if its value is known. -/
def known (e : Expr) (value : Option (Except Cause Value)) (line : Nat) : Expr :=
  match value with
  | some (.ok v) => .constant v line
  | _ => e

/-- An expression that ends where so many tokens are left. A constant with parts is the same value each
time it is evaluated. -/
def endingAt (left : Nat) : Expr → Expr
  | .constant v line => .constant (v.rooted (.written left) []) line
  | e => e

def ofNegation (e : Expr) (line : Nat) : Expr :=
  known (.negation e line) (e.constant?.map fun v => .ok (.bool (!v.isTrue))) line

def ofNegative (e : Expr) (line : Nat) : Expr := known (.negative e line) (e.constant?.map negate) line

/-- An operator between two expressions. -/
def ofBinary (op : BinaryOp) (l r : Expr) (line : Nat) : Expr :=
  known (.binary op l r line)
    (match l.constant?, r.constant? with
      | some a, some b => some (applyOperator op a b)
      | _, _ => none) line

/-- Whether a value and others stand in their relations, each to the next. -/
def allRelate (a : Value) : List (Relation × Value) → Except Cause Bool
  | [] => .ok true
  | (r, b) :: others => do if ← r.relates a b then allRelate b others else pure false

def ofComparison (first : Expr) (others : List (Relation × Expr)) (line : Nat) : Expr :=
  known (.comparison first others line)
    (match first.constant?, others.mapM fun o => o.2.constant?.map (o.1, ·) with
      | some a, some bs => some ((allRelate a bs).map .bool)
      | _, _ => none) line

def ofItems (items : List Expr) (line : Nat) : Expr :=
  known (.list items line) ((items.mapM constant?).map fun vs => .ok (.ofItems vs)) line

/-- The key and the value of an entry of constants. -/
def constantEntry? (e : Expr × Expr) : Option (Value × Value) :=
  match e.1.constant?, e.2.constant? with
  | some k, some v => some (k, v)
  | _, _ => none

def ofEntries (entries : List (Expr × Expr)) (line : Nat) : Expr :=
  known (.map entries line)
    ((entries.mapM constantEntry?).map fun es => .ok (.ofEntries (distinctEntries es))) line

end Expr

end Stencil.Template
