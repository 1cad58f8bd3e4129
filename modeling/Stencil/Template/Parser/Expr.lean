import Stencil.Template.Constant
import Stencil.Template.Parser.Cursor

/-!
# Reading expressions

From the loosest to the tightest: the choice with `if`, `or`, `and`, `not`, the comparisons, `+` and
`-`, `~`, the products, `**`, the sign of a number, attributes and calls, and last filters and tests.

Expressions nest to a fixed depth, counted twice for each pair of brackets. The recursion is on a bound
for the number of tokens, since whatever is nested comes after a token of its own.
-/

namespace Stencil.Template

open Parse

/-- What the readers of a level have at hand. -/
structure Nested where
  /-- Reads an expression inside the brackets of an operand. -/
  inner : Parse Expr
  /-- Reads an expression inside the brackets after an operand. -/
  outer : Parse Expr

/-! ## Brackets -/

/-- Reads what is listed up to a closing sign, with commas between. The flag tells whether an item was
read before, in which case a comma has to follow. -/
def listed {α : Type} (close : Token) (item : Parse α) : Nat → Bool → Parse (List α)
  | 0, _ => fail
  | n + 1, isLater => do
      if ← skipSign close then pure []
      else
        if isLater then expectSign .comma
        if isLater && (← skipSign close) then pure []
        else
          let x ← item
          let xs ← listed close item n true
          pure (x :: xs)

/-- Reads what is listed, with as many steps as there are tokens. -/
def listedAll {α : Type} (close : Token) (item : Parse α) (isLater : Bool) : Parse (List α) := do
  listed close item ((← remaining) + 1) isLater

/-- Reads an entry of a mapping. -/
def mapEntry (expr : Parse Expr) : Parse (Expr × Expr) := do
  let k ← expr
  expectSign .colon
  let v ← expr
  pure (k, v)

/-- An expression that ends here. -/
def ended (e : Expr) : Parse Expr := do
  pure (e.endingAt (← remaining))

/-- Reads what round brackets hold: an expression, or the items of a list. -/
def parenthesised (expr : Parse Expr) (line : Nat) : Parse Expr := do
  if ← skipSign .closeParen then ended (.ofItems [] line)
  else
    let first ← expr
    if ← isSign .comma then
      let more ← listedAll .closeParen expr true
      ended (.ofItems (first :: more) line)
    else
      expectSign .closeParen
      pure first

def isString : Token → Bool
  | .string .. => true
  | _ => false

/-- The string literals that follow one another make one string. -/
def joinStrings : Nat → String → Parse String
  | 0, s => pure s
  | n + 1, s => do
      match ← peek with
      | some ⟨.string t _, _⟩ =>
          let _ ← next
          joinStrings n (s ++ t)
      | _ => pure s

/-- The string that starts with a literal. A fault of cutting right after a literal without escapes only
ends the template there. -/
def stringFrom (s : String) (plain : Bool) : Parse String := do
  let stands ← if plain then
      (fun t? : Option Placed => !t?.any (isString ·.token)) <$> peekFaultless
    else pure false
  if stands then pure s else joinStrings ((← remaining) + 1) s

def wordOperand (s : String) (line : Nat) : Expr :=
  if s = "true" ∨ s = "True" then .constant (.bool true) line
  else if s = "false" ∨ s = "False" then .constant (.bool false) line
  else if s = "none" ∨ s = "None" then .constant .none line
  else .name s line

/-- Reads an operand. -/
def primary (expr : Parse Expr) : Parse Expr := do
  let t ← require
  match t.token with
  | .name s => pure (wordOperand s t.line)
  | .string s plain => pure (.constant (.text (← stringFrom s plain)) t.line)
  | .int n => pure (.constant (.ofCount n) t.line)
  | .float x => pure (.constant (.float x) t.line)
  | .openParen => parenthesised expr t.line
  | .openBracket => ended (.ofItems (← listedAll .closeBracket expr false) t.line)
  | .openBrace => ended (.ofEntries (← listedAll .closeBrace (mapEntry expr) false) t.line)
  | _ => fail

/-! ## Arguments -/

/-- Reads one argument; after one by name none may be given by position. -/
def argument (nested : Nested) (named : Bool) : Parse Arg := do
  if ← skipSign .power then pure (.keywords (← nested.outer))
  else if ← skipSign .times then pure (.splat (← nested.outer))
  else
    let e ← nested.outer
    match e with
    | .name id _ =>
        if ← skipSign .assign then pure (.keyword id (← nested.outer))
        else if named then fail
        else pure (.positional e)
    | _ => if named then fail else pure (.positional e)

/-- Reads the arguments after the first bracket. -/
def argumentsFrom (nested : Nested) : Nat → List Arg → Parse (List Arg)
  | 0, _ => fail
  | n + 1, args => do
      if ← skipSign .closeParen then pure args
      else
        if !args.isEmpty then expectSign .comma
        if !args.isEmpty && (← skipSign .closeParen) then pure args
        else
          let a ← argument nested (args.any Arg.isNamed)
          let args := args ++ [a]
          if args.length > 2000 then fail else argumentsFrom nested n args

/-- Reads the arguments of a call with their brackets. -/
def arguments (nested : Nested) : Parse (List Arg) := do
  expectSign .openParen
  argumentsFrom nested ((← remaining) + 1) []

/-! ## After an operand -/

/-- A part of a slice that is left out, after what reaches a line. -/
def leftOut (line : Nat) : Expr := .constant .none line

/-- Reads what square brackets after an operand hold. -/
def subscript (nested : Nested) (object : Expr) (line : Nat) : Parse Expr := do
  let start ← if ← isSign .colon then pure none else some <$> nested.outer
  if ← skipSign .colon then
    let reached := object.lineAfter line
    let start := start.getD (leftOut reached)
    let reached := start.lineAfter reached
    let stop ←
      if (← isSign .closeBracket) || (← isSign .colon) then pure (leftOut reached)
      else nested.outer
    let reached := stop.lineAfter reached
    let step ←
      if ← skipSign .colon then
        if ← isSign .closeBracket then pure (leftOut reached) else nested.outer
      else pure (leftOut reached)
    expectSign .closeBracket
    pure (.slice object start stop step line)
  else
    expectSign .closeBracket
    match start with
    | some index => pure (.item object index line)
    | none => fail

/-- Reads the attributes, subscripts and calls after an operand. -/
def postfixes (nested : Nested) : Nat → Nat → Expr → Parse Expr
  | 0, _, e => pure e
  | n + 1, line, e => do
      let here ← hereLine
      if ← skipSign .dot then
        let t ← require
        match t.token with
        | .name s => postfixes nested n here (.attribute e s line)
        | .int i => postfixes nested n here (.item e (.constant (.ofCount i) t.line) line)
        | _ => fail
      else if ← skipSign .openBracket then
        postfixes nested n here (← subscript nested e line)
      else if ← isSign .openParen then
        postfixes nested n here (.call e (← arguments nested) line)
      else pure e

/-- Reads the arguments of a filter or test, which may be absent. -/
def optionalArguments (nested : Nested) : Parse (List Arg) := do
  if ← isSign .openParen then arguments nested else pure []

/-- Reads an operand with the minus signs in front of it. -/
def signed (operand : Parse Expr) : Nat → Parse Expr
  | 0 => fail
  | n + 1 => do
      let line ← hereLine
      if ← skipSign .minus then pure (.ofNegative (← signed operand n) line) else operand

/-- Reads an operand with its signs, attributes, subscripts and calls. -/
def signedPostfix (nested : Nested) (operand : Parse Expr) : Parse Expr := do
  let line ← hereLine
  let e ← signed operand ((← remaining) + 1)
  postfixes nested ((← remaining) + 1) line e

/-- Whether a token starts the one argument that a test may have without brackets. -/
def startsTestArgument : Token → Bool
  | .name s => !(s == "and" || s == "or" || s == "else" || s == "is")
  | .string .. | .int _ | .float _ | .plus | .minus | .openBracket | .openBrace => true
  | _ => false

def testArguments (nested : Nested) (operand : Parse Expr) : Parse (List Arg) := do
  if ← isSign .openParen then arguments nested
  else if ← isNext startsTestArgument then
    pure [.positional (← signedPostfix nested operand)]
  else pure []

/-- Reads the further names of a filter or test after dots. -/
def dottedRest : Nat → String → Parse String
  | 0, name => pure name
  | n + 1, name => do
      if ← skipSign .dot then
        let (more, _) ← word
        dottedRest n (name ++ "." ++ more)
      else pure name

/-- Reads the name of a filter or test, which may have several parts with dots between them, and gives
its line. -/
def dottedName : Parse (String × Nat) := do
  let (name, line) ← word
  pure (← dottedRest (← remaining) name, line)

/-- Reads the filters and tests after an operand. -/
def filters (nested : Nested) (operand : Parse Expr) : Nat → Expr → Parse Expr
  | 0, e => pure e
  | n + 1, e => do
      if ← skipSign .pipe then
        let (name, line) ← dottedName
        filters nested operand n (.filter name e (← optionalArguments nested) line)
      else if ← skipWord "is" then
        let negated ← skipWord "not"
        let (name, line) ← dottedName
        let test := Expr.test name e (← testArguments nested operand) line
        filters nested operand n (if negated then .ofNegation test line else test)
      else pure e

/-- Reads an operand with all that belongs to it. -/
def unary (nested : Nested) (operand : Parse Expr) : Parse Expr := do
  let e ← signedPostfix nested operand
  filters nested operand ((← remaining) + 1) e

/-! ## Operators -/

/-- Reads the operators of one level after their first operand, from left to right. -/
def operators (operand : Parse Expr) (op? : Token → Option BinaryOp) (line : Nat) :
    Nat → Expr → Parse Expr
  | 0, e => pure e
  | n + 1, e => do
      match (← peek).bind fun t => op? t.token with
      | none => pure e
      | some op =>
          let _ ← next
          let r ← operand
          operators operand op? line n (← ended (.ofBinary op e r line))

/-- Reads operands with the operators of one level between them. -/
def leftAssociative (operand : Parse Expr) (op? : Token → Option BinaryOp) : Parse Expr := do
  let line ← hereLine
  let e ← operand
  operators operand op? line ((← remaining) + 1) e

def powerOp? : Token → Option BinaryOp
  | .power => some .power
  | _ => none

def productOp? : Token → Option BinaryOp
  | .times => some .multiply
  | .divide => some .divide
  | .floorDivide => some .floorDivide
  | .modulo => some .remainder
  | _ => none

/-- The operator that joins texts. -/
def concatOp? : Token → Option BinaryOp
  | .tilde => some .concat
  | _ => none

def sumOp? : Token → Option BinaryOp
  | .plus => some .add
  | .minus => some .subtract
  | _ => none

/-- The relations of comparisons, but for the one of two words. -/
def relation? : Token → Option Relation
  | .equal => some .equal
  | .unequal => some .unequal
  | .less => some .less
  | .lessEqual => some .lessEqual
  | .greater => some .greater
  | .greaterEqual => some .greaterEqual
  | .name s => if s = "in" then some .isIn else none
  | _ => none

/-- Reads the relations and operands after the first operand of a comparison. -/
def relations (operand : Parse Expr) : Nat → Parse (List (Relation × Expr))
  | 0 => pure []
  | n + 1 => do
      if ← skipWord "not" then
        expectWord "in"
        let e ← operand
        pure ((.isNotIn, e) :: (← relations operand n))
      else
        match (← peek).bind fun t => relation? t.token with
        | none => pure []
        | some relation =>
            let _ ← next
            let e ← operand
            pure ((relation, e) :: (← relations operand n))

def comparison (operand : Parse Expr) : Parse Expr := do
  let line ← lastLine
  let first ← operand
  match ← relations operand ((← remaining) + 1) with
  | [] => pure first
  | others => pure (.ofComparison first others line)

/-- Reads an operand with the `not`s in front of it. -/
def negations (operand : Parse Expr) : Nat → Parse Expr
  | 0 => fail
  | n + 1 => do
      let line ← hereLine
      if ← skipWord "not" then pure (.ofNegation (← negations operand n) line) else operand

/-- The operator of conjunctions. -/
def andOp? : Token → Option BinaryOp
  | .name s => if s = "and" then some .and else none
  | _ => none

/-- The operator of disjunctions. -/
def orOp? : Token → Option BinaryOp
  | .name s => if s = "or" then some .or else none
  | _ => none

/-- Reads all that binds tighter than a choice. -/
def disjunctionOf (nested : Nested) (operand : Parse Expr) : Parse Expr :=
  let power := leftAssociative (unary nested operand) powerOp?
  let sum := leftAssociative (leftAssociative (leftAssociative power productOp?) concatOp?) sumOp?
  let negation : Parse Expr := do negations (comparison sum) ((← remaining) + 1)
  leftAssociative (leftAssociative negation andOp?) orOp?

/-- Reads the choices after a first value. An alternative may be a choice itself. -/
def choices (operand : Parse Expr) : Nat → Nat → Expr → Parse Expr
  | 0, _, e => pure e
  | n + 1, line, e => do
      if ← skipWord "if" then
        let condition ← operand
        let alternative ←
          if ← skipWord "else" then
            let line ← lastLine
            choices operand n line (← operand)
          else pure .absent
        choices operand n (← hereLine) (.choice condition e alternative line)
      else pure e

/-- Reads an expression that may be a choice. -/
def choice (operand : Parse Expr) : Parse Expr := do
  let line ← lastLine
  let e ← operand
  choices operand ((← remaining) + 1) line e

/-- Reads something only if nesting may go on. -/
def guarded (depth : Nat) (p : Parse Expr) : Parse Expr := if depth = 0 then fail else p

/-- Reads an expression that is no choice, with `depth` levels of nesting left. -/
def disjunction : Nat → Nat → Parse Expr
  | 0, _ => fail
  | n + 1, depth =>
      let expr (depth : Nat) := guarded depth (choice (disjunction n (depth - 1)))
      disjunctionOf ⟨expr (depth - 1), expr depth⟩
        (guarded depth (primary (expr (depth - 1))))

/-- Reads an expression, with `depth` levels of nesting left. -/
def expression (bound depth : Nat) : Parse Expr :=
  guarded depth (choice (disjunction bound (depth - 1)))

end Stencil.Template
