import Stencil.Template.Stmt
import Stencil.Template.Parser.Expr

/-!
# Reading statements

A template is read from the front: text and printed expressions as they come, and after the mark of a
block its keyword decides. The body of a block goes on up to a keyword that ends it, which the caller
names.

The recursion is on a bound for the number of tokens, since every statement inside a block comes after
the tokens that opened it; `depth` limits how far statements nest.
-/

namespace Stencil.Template

open Parse

/-- The names that nothing can be assigned to. -/
def reservedNames : List String :=
  ["true", "True", "false", "False", "none", "None", "loop", "self"]

/-! ## Targets -/

/-- Reads a name that something is assigned to. -/
def targetName : Parse (String × Nat) := do
  let (id, line) ← word
  if reservedNames.contains id then fail else pure (id, line)

/-- Reads the attributes after the name of a target. -/
def targetAttributes : Nat → Expr → Parse Expr
  | 0, e => pure e
  | n + 1, e => do
      if ← skipSign .dot then
        let (attr, line) ← word
        targetAttributes n (.attribute e attr line)
      else pure e

/-- Reads a name, or an attribute of one, that something is assigned to. -/
def dottedTarget : Parse Target := do
  let (id, line) ← targetName
  match ← targetAttributes (← remaining) (.name id line) with
  | .attribute object name line => pure (.attribute object name line)
  | _ => pure (.name id line)

/-- Whether a list of targets ends in front of a token. -/
def endsTargets (t : Token) : Bool :=
  t.isSign .closeParen || t.isSign .closePrint || t.isSign .closeBlock || t.isName "in"

/-- Reads the targets of a list up to a token that ends it, the first of which has no comma in front.
The answer tells whether a comma was among them. -/
def targetItems (item : Parse Target) : Nat → Bool → Parse (List Target × Bool)
  | 0, _ => fail
  | n + 1, isLater => do
      if isLater then expectSign .comma
      if ← isNext endsTargets then pure ([], isLater)
      else
        let first ← item
        if ← isSign .comma then
          let (more, _) ← targetItems item n true
          pure (first :: more, true)
        else pure ([first], isLater)

/-- Reads a target, or one that is written in brackets. -/
def bracketable (inner single : Parse Target) : Parse Target := do
  if ← skipSign .openParen then
    let t ← inner
    expectSign .closeParen
    pure t
  else single

/-- Reads a target made of single ones, which is one of them or a list of targets. -/
def targets (single : Parse Target) : Nat → Parse Target
  | 0 => fail
  | n + 1 => do
      let line ← hereLine
      match ← targetItems (bracketable (targets single n) single) (n + 1) false with
      | ([item], false) => pure item
      | (items, _) => pure (.parts items line)

def nameTarget : Parse Target := do
  let (id, line) ← targetName
  pure (.name id line)

/-- Reads a target of names, with as many steps as there are tokens. -/
def targetAll : Parse Target := do targets nameTarget ((← remaining) + 1)

/-- Reads a name or a target of names in brackets. -/
def bracketedTarget : Parse Target := bracketable targetAll nameTarget

def assignedTarget : Parse Target := do targets dottedTarget ((← remaining) + 1)

/-! ## Statements without a body -/

/-- What the readers of statements have at hand. -/
structure StmtReaders where
  /-- Reads an expression. -/
  expr : Parse Expr
  /-- Reads an expression that is no choice. -/
  simple : Parse Expr
  /-- Reads the arguments of a call. -/
  args : Parse (List Arg)
  /-- Reads a body up to a keyword that ends it. -/
  body : List String → Parse (List Stmt)

/-- Passes over the word on how the context is handed on, and tells whether it was there. -/
def skipContext : Parse Bool := do
  if (← skipWord "with") || (← skipWord "without") then
    expectWord "context"
    pure true
  else pure false

def inclusion (r : StmtReaders) (line : Nat) : Parse Stmt := do
  let name ← r.expr
  let told ← skipContext
  let optional ←
    if ← skipWord "ignore" then
      expectWord "missing"
      if !told then let _ ← skipContext
      pure true
    else pure false
  pure (.inclusion name optional line)

mutual

/-- The target that an expression is, if something can be given to it. -/
def targetOfExpr? : Expr → Option Target
  | .name id line => some (.name id line)
  | .attribute object name line => some (.attribute object name line)
  | .constant (.list [] _) line => some (.parts [] line)
  | .list items line => (targetsOfExprs? items).map (.parts · line)
  | _ => none

def targetsOfExprs? : List Expr → Option (List Target)
  | [] => some []
  | e :: es =>
      match targetOfExpr? e, targetsOfExprs? es with
      | some t, some ts => some (t :: ts)
      | _, _ => none

end

/-- Reads the import of a template under a name. -/
def importation (r : StmtReaders) (line : Nat) : Parse Stmt := do
  let name ← r.expr
  expectWord "as"
  match targetOfExpr? (← r.expr) with
  | none => fail
  | some target =>
      let _ ← skipContext
      pure (.importation name target line)

/-- Whether a list of imported names ends here: before the closing mark, or where it is said how the
context is handed on. -/
def endsImport : Parse Bool := isNext fun t =>
  t.isSign .closeBlock || t.isName "with" || t.isName "without"

/-- Reads the names that are imported from a template, each with the name it is given to. -/
def importedNames : Nat → Bool → Parse (List (String × String))
  | 0, _ => fail
  | n + 1, isLater => do
      if ← endsImport then pure []
      else
        if isLater then expectSign .comma
        if ← endsImport then pure []
        else
          let (name, _) ← targetName
          let (own, _) ← if ← skipWord "as" then targetName else pure (name, 0)
          let more ← importedNames n true
          pure ((name, own) :: more)

/-- Reads the import of names from a template. -/
def selectiveImport (r : StmtReaders) (line : Nat) : Parse Stmt := do
  let name ← r.expr
  expectWord "import"
  let names ← importedNames ((← remaining) + 1) false
  let _ ← skipContext
  pure (.selection name names line)

/-- Reads an expression that has to be a call. -/
def callOnly (expr : Parse Expr) : Parse Expr := do
  match ← expr with
  | .call f args line => pure (.call f args line)
  | _ => fail

/-! ## Blocks -/

/-- Takes the keyword that ends a body; at the end of the template there is none. -/
def takeEnd : Parse Unit := do
  let _ ← next

/-- Reads the rest of an opening tag and the body after it. -/
def bodyAfterTag (r : StmtReaders) (ends : List String) : Parse (List Stmt) := do
  expectSign .closeBlock
  r.body ends

def loop (r : StmtReaders) (line : Nat) : Parse Stmt := do
  let target ← targetAll
  expectWord "in"
  let subject ← r.simple
  let only ← if ← skipWord "if" then some <$> r.expr else pure none
  let recursive ← skipWord "recursive"
  let body ← bodyAfterTag r ["endfor", "else"]
  let otherwise ← if ← skipWord "else" then bodyAfterTag r ["endfor"] else pure []
  takeEnd
  pure (.loop (← newSerial) target subject only recursive body otherwise line)

def branches (r : StmtReaders) : Nat → Nat → Parse Stmt
  | 0, _ => fail
  | n + 1, line => do
      let condition ← r.simple
      let body ← bodyAfterTag r ["endif", "else", "elif"]
      match ← next with
      | none => pure (.branch condition body [] line)
      | some t =>
          if t.token.isName "else" then
            let otherwise ← bodyAfterTag r ["endif"]
            takeEnd
            pure (.branch condition body otherwise line)
          else if t.token.isName "elif" then
            let otherwise ← branches r n t.line
            pure (.branch condition body [otherwise] line)
          else pure (.branch condition body [] line)

/-- Reads the bindings of a scope up to the closing mark. -/
def bindings (expr : Parse Expr) : Nat → Bool → Parse (List (Target × Expr))
  | 0, _ => fail
  | n + 1, isLater => do
      if ← isSign .closeBlock then pure []
      else
        if isLater then expectSign .comma
        let target ← bracketedTarget
        expectSign .assign
        let value ← expr
        let more ← bindings expr n true
        pure ((target, value) :: more)

def scope (r : StmtReaders) (line : Nat) : Parse Stmt := do
  let bindings ← bindings r.expr ((← remaining) + 1) false
  let body ← bodyAfterTag r ["endwith"]
  takeEnd
  pure (.scope bindings body line)

/-- Reads filters up to the closing mark, the first of which is applied to `e`. -/
def filterChain (r : StmtReaders) : Nat → Bool → Expr → Parse Expr
  | 0, _, _ => fail
  | n + 1, isLater, e => do
      if ← isSign .closeBlock then (if isLater then pure e else fail)
      else
        if isLater then expectSign .pipe
        let (name, line) ← dottedName
        let args ← if ← isSign .openParen then r.args else pure []
        filterChain r n true (.filter name e args line)

/-- Reads filters that the text of a body is passed through. -/
def bodyFilters (r : StmtReaders) : Parse Expr := do
  filterChain r ((← remaining) + 1) false .captured

/-- Reads the values after the first of a list that is written without brackets. -/
def moreValues (expr : Parse Expr) : Nat → Parse (List Expr)
  | 0 => fail
  | n + 1 => do
      if ← skipSign .comma then
        if ← isSign .closeBlock then pure []
        else
          let e ← expr
          let es ← moreValues expr n
          pure (e :: es)
      else pure []

/-- Reads a value, or a list of values that is written without brackets. -/
def assignedValue (expr : Parse Expr) : Parse Expr := do
  let line ← hereLine
  let first ← expr
  if ← isSign .comma then
    let more ← moreValues expr ((← remaining) + 1)
    ended (.ofItems (first :: more) line)
  else pure first

/-- Reads an assignment, of a value or of what a body prints. -/
def assignment (r : StmtReaders) (line : Nat) : Parse Stmt := do
  let target ← assignedTarget
  if (← isSign .closeBlock) || (← isSign .pipe) then
    let value ← if ← skipSign .pipe then bodyFilters r else pure .captured
    let body ← bodyAfterTag r ["endset"]
    takeEnd
    pure (.capture target value body line)
  else
    expectSign .assign
    pure (.assign target (← assignedValue r.expr) line)

/-- Reads a block that sets how values are escaped. -/
def escaping (r : StmtReaders) (line : Nat) : Parse Stmt := do
  let mode ← r.expr
  let body ← bodyAfterTag r ["endautoescape"]
  takeEnd
  pure (.escaping mode body line)

/-- Reads a block whose text is passed through filters. -/
def filtered (r : StmtReaders) (line : Nat) : Parse Stmt := do
  let value ← bodyFilters r
  let body ← bodyAfterTag r ["endfilter"]
  takeEnd
  pure (.filtered value body line)

/-- Notes the name of a block, which no other block may have. -/
def nameBlock (name : String) : Parse Unit := fun c =>
  if c.blocks.contains name then .error ⟨.malformed, c.line⟩
  else .ok ((), { c with blocks := name :: c.blocks })

/-- Whether the place is inside a macro. -/
def insideMacro : Parse Bool := fun c => .ok (c.inMacro, c)

/-- Notes whether the place is inside a macro. -/
def setInsideMacro (b : Bool) : Parse Unit := fun c => .ok ((), { c with inMacro := b })

/-- Whether a statement is white space alone. -/
def Stmt.isBlank : Stmt → Bool
  | .text content _ => content.all Text.isBlank
  | _ => false

/-- Reads a named block. Its name may be said again at its end. A block that is required holds nothing
but white space. -/
def block (r : StmtReaders) (line : Nat) : Parse Stmt := do
  if ← insideMacro then fail
  else
    let (name, _) ← word
    let _ ← skipWord "scoped"
    let required ← skipWord "required"
    nameBlock name
    let body ← bodyAfterTag r ["endblock"]
    takeEnd
    if required && !body.all Stmt.isBlank then fail
    match (← peek).map Placed.token with
    | some (.name trailing) =>
        if trailing = name then takeEnd else fail
    | _ => pure ()
    pure (.block name required body line)

/-! ## Macros -/

/-- The parameters of a macro and the defaults of the last of them. -/
structure Params where
  names : List String
  defaults : List Expr

/-- Reads parameters up to the closing bracket. After a parameter with a default all have one. -/
def params (expr : Parse Expr) : Nat → Params → Parse Params
  | 0, _ => fail
  | n + 1, ps => do
      if ← skipSign .closeParen then pure ps
      else
        if !ps.names.isEmpty then expectSign .comma
        if !ps.names.isEmpty && (← skipSign .closeParen) then pure ps
        else
          let (name, _) ← targetName
          let names := ps.names ++ [name]
          if ← skipSign .assign then
            let default ← expr
            params expr n ⟨names, ps.defaults ++ [default]⟩
          else if ps.defaults.isEmpty then params expr n ⟨names, []⟩
          else fail

/-- Reads the rest of an opening tag and the body of a macro. -/
def macroBody (r : StmtReaders) (ending : String) : Parse (List Stmt) := do
  expectSign .closeBlock
  let outside ← insideMacro
  setInsideMacro true
  let body ← r.body [ending]
  setInsideMacro outside
  takeEnd
  pure body

def definition (r : StmtReaders) (line : Nat) : Parse Stmt := do
  let (name, _) ← word
  expectSign .openParen
  let ps ← params r.expr ((← remaining) + 1) ⟨[], []⟩
  let body ← macroBody r "endmacro"
  pure (.define (.mk (← newSerial) name ps.names ps.defaults body line))

/-- Reads a call that is handed a body. -/
def callWith (r : StmtReaders) (line : Nat) : Parse Stmt := do
  let ps ←
    if ← skipSign .openParen then params r.expr ((← remaining) + 1) ⟨[], []⟩
    else pure ⟨[], []⟩
  let call ← callOnly r.expr
  let body ← macroBody r "endcall"
  pure (.callWith call (.mk (← newSerial) "caller" ps.names ps.defaults body line) line)

/-! ## All statements -/

/-- Reads a statement after its mark; the keyword decides which. -/
def statement (r : StmtReaders) : Parse Stmt := do
  let (keyword, line) ← word
  match keyword with
  | "for" => loop r line
  | "if" => branches r ((← remaining) + 1) line
  | "with" => scope r line
  | "set" => assignment r line
  | "autoescape" => escaping r line
  | "filter" => filtered r line
  | "block" => block r line
  | "extends" => pure (.extension (← r.expr) line)
  | "include" => inclusion r line
  | "import" => importation r line
  | "from" => selectiveImport r line
  | "macro" => definition r line
  | "call" => callWith r line
  | "do" => pure (.perform (← callOnly r.expr) line)
  | _ => fail

/-- Reads statements up to a keyword that ends them, or to the end of the template. -/
def statements (one : Parse Stmt) (expr : Parse Expr) (ends : List String) :
    Nat → Parse (List Stmt)
  | 0 => fail
  | n + 1 => do
      match ← next with
      | none => pure []
      | some t =>
          match t.token with
          | .text content =>
              let more ← statements one expr ends n
              pure (.text content t.line :: more)
          | .openPrint =>
              let e ← expr
              expectSign .closePrint
              let more ← statements one expr ends n
              pure (.print e t.line :: more)
          | .openBlock =>
              match ← peek with
              | none => fail
              | some k =>
                  if k.token.isNameIn ends then pure []
                  else
                    let s ← one
                    expectSign .closeBlock
                    let more ← statements one expr ends n
                    pure (s :: more)
          | _ => fail

/-- The readers of arguments on a level. -/
def argumentsAt (bound depth : Nat) : Parse (List Arg) :=
  arguments ⟨expression bound (depth - 1), expression bound depth⟩

/-- Reads a body, with `depth` levels of nesting left. -/
def bodyAt (bound : Nat) : Nat → Nat → List String → Parse (List Stmt)
  | 0, _, _ => fail
  | n + 1, depth, ends => do
      let readers : StmtReaders :=
        { expr := expression bound (depth - 1)
          simple := disjunction bound (depth - 1)
          args := argumentsAt bound (depth - 1)
          body := bodyAt bound n (depth - 1) }
      let one := if depth = 0 then fail else statement readers
      statements one (expression bound depth) ends ((← remaining) + 1)

/-- How many levels statements and expressions may nest. -/
def maxNesting : Nat := 150

/-- The statements of a template. -/
def Stmt.ofTokens (ts : Tokens) : Except Fault (List Stmt) :=
  let bound := ts.tokens.length + 1
  match bodyAt bound bound maxNesting [] (Cursor.start ts) with
  | .ok (body, _) => .ok body
  | .error f => .error f

end Stencil.Template
