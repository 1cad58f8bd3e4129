import Stencil.Template.Token.Lexer

/-!
# A place among tokens

The parser's state: the tokens that are left, and the line of the last one taken, to which a fault is
attributed. A fault of cutting is met when the parser looks past the tokens in front of it.
-/

namespace Stencil.Template

/-- A place among the tokens of a template. -/
structure Cursor where
  tokens : List Placed
  /-- How many tokens are left. -/
  left : Nat
  fault : Option LexFault
  /-- The line of the last token taken. -/
  line : Nat
  /-- The names of the blocks so far. -/
  blocks : List String
  /-- Whether the place is inside a macro. -/
  inMacro : Bool
  /-- How many loops and macros have been numbered so far. -/
  numbered : Nat

/-- The place before the first token. -/
def Cursor.start (ts : Tokens) : Cursor := ⟨ts.tokens, ts.tokens.length, ts.fault, 1, [], false, 0⟩

/-- A parser: it moves the cursor, or meets a fault. -/
abbrev Parse (α : Type) := StateT Cursor (Except Fault) α

namespace Parse

/-- The fault that the template is not well formed here. -/
def fail {α : Type} : Parse α := fun c => .error ⟨.malformed, c.line⟩

/-- The next token, which stays; none at the end of the template. -/
def peek : Parse (Option Placed) := fun c =>
  match c.tokens with
  | t :: _ => .ok (some t, c)
  | [] =>
      match c.fault with
      | some f => .error ⟨f.cause, f.line.getD c.line⟩
      | none => .ok (none, c)

/-- The next token, which stays. A fault of cutting that is met counts as the end of the template from
here on. -/
def peekFaultless : Parse (Option Placed) := fun c =>
  match c.tokens with
  | t :: _ => .ok (some t, c)
  | [] => .ok (none, { c with fault := none })

/-- Takes the next token; none at the end of the template. -/
def next : Parse (Option Placed) := fun c =>
  match c.tokens with
  | t :: ts => .ok (some t, { c with tokens := ts, left := c.left - 1, line := t.line })
  | [] =>
      match c.fault with
      | some f => .error ⟨f.cause, f.line.getD c.line⟩
      | none => .ok (none, c)

/-- Takes the next token, of which there has to be one. -/
def require : Parse Placed := do
  match ← next with
  | some t => pure t
  | none => fail

/-- The line of the next token, or of the last one at the end. -/
def hereLine : Parse Nat := fun c =>
  match c.tokens with
  | t :: _ => .ok (t.line, c)
  | [] => .ok (c.line, c)

/-- The line of the last token taken. -/
def lastLine : Parse Nat := fun c => .ok (c.line, c)

/-- A number that no loop or macro has yet. -/
def newSerial : Parse Nat := fun c => .ok (c.numbered, { c with numbered := c.numbered + 1 })

def remaining : Parse Nat := fun c => .ok (c.left, c)

def isNext (p : Token → Bool) : Parse Bool := do
  match ← peek with
  | some t => pure (p t.token)
  | none => pure false

/-- Takes the next token if it is of some kind, and tells whether it was. -/
def skip (p : Token → Bool) : Parse Bool := do
  if ← isNext p then
    let _ ← next
    pure true
  else pure false

/-- Takes the next token, which has to be of some kind. -/
def expect (p : Token → Bool) : Parse Unit := do
  let t ← require
  if p t.token then pure () else fail

def expectSign (t : Token) : Parse Unit := expect (·.isSign t)

/-- Takes a sign if it is next. -/
def skipSign (t : Token) : Parse Bool := skip (·.isSign t)

def isSign (t : Token) : Parse Bool := isNext (·.isSign t)

/-- Takes a word of a given spelling. -/
def expectWord (s : String) : Parse Unit := expect (·.isName s)

/-- Takes a word if it is next. -/
def skipWord (s : String) : Parse Bool := skip (·.isName s)

def isWord (s : String) : Parse Bool := isNext (·.isName s)

/-- Takes a word and gives its spelling and line. -/
def word : Parse (String × Nat) := do
  let t ← require
  match t.token with
  | .name s => pure (s, t.line)
  | _ => fail

end Parse

end Stencil.Template
