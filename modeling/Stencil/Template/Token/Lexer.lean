import Stencil.Template.Fault
import Stencil.Template.Token
import Stencil.Template.Token.Literal
import Stencil.Text.Blank
import Stencil.Text.Lines

/-!
# Cutting a template into tokens

Text stands for itself up to an opening mark. Between the marks of an expression or a statement there
are words, literals and signs; comments vanish, and a raw block is text. A hyphen at a mark drops the
white space on its outer side.

A mark closes only outside of brackets, so the braces of a mapping may be written inside. Cutting goes
on up to the first fault; what was cut before it stands.
-/

namespace Stencil.Template

/-- A fault of cutting; one without a line belongs to the token in front of it. -/
structure LexFault where
  cause : Cause
  line : Option Nat
  deriving DecidableEq, Repr

/-- The tokens of a template, and why there are no more of them. -/
structure Tokens where
  tokens : List Placed
  fault : Option LexFault

/-- One more token in front. -/
def Tokens.cons (t : Token) (line : Nat) (ts : Tokens) : Tokens :=
  { ts with tokens := ⟨t, line⟩ :: ts.tokens }

/-- Cutting stops at a fault. -/
def Tokens.stop (cause : Cause) (line : Option Nat) : Tokens := ⟨[], some ⟨cause, line⟩⟩

/-- Nothing is left to cut. -/
def Tokens.done : Tokens := ⟨[], none⟩

/-! ## Marks -/

/-- The three opening marks. -/
inductive Mark where
  | print
  | block
  | comment
  deriving DecidableEq, Repr

/-- The mark that a character after a brace makes. -/
def Mark.ofChar? (c : Char) : Option Mark :=
  if c = '\x7b' then some .print
  else if c = '%' then some .block
  else if c = '#' then some .comment
  else none

/-- The text before the first opening mark, the mark and the text after it; all text when there is no
mark. -/
def findMark : List Char → List Char × Option (Mark × List Char)
  | [] => ([], none)
  | c :: cs =>
      match (if c = '\x7b' then cs.head?.bind Mark.ofChar? else none) with
      | some mark => ([], some (mark, cs.drop 1))
      | none =>
          let (lead, found) := findMark cs
          (c :: lead, found)

/-- What a sign at a mark does to the white space on the outer side. -/
def dropSign (cs : List Char) : Bool × List Char :=
  match cs with
  | '-' :: rest => (true, rest)
  | '+' :: rest => (false, rest)
  | _ => (false, cs)

/-- How many line ends a text holds. -/
def newlines (cs : List Char) : Nat := cs.count '\n'

/-- White space of the first 128 characters, which may stand between tokens. -/
def isSpace (c : Char) : Bool :=
  c == ' ' || c == '\t' || c == '\n' || c == '\x0c' || c == '\r'

/-- The text of a comment and the text after its closing mark. -/
def commentBody : List Char → Option (List Char × List Char)
  | [] => none
  | c :: cs =>
      if c = '#' ∧ cs.head? = some '\x7d' then some ([], cs.drop 1)
      else (commentBody cs).map fun (s, r) => (c :: s, r)

/-- The text after a word that it starts with. -/
def afterWord? : List Char → List Char → Option (List Char)
  | [], cs => some cs
  | w :: ws, c :: cs => if w = c then afterWord? ws cs else none
  | _ :: _, [] => none

/-- Reads a block that consists of a word alone, up to its closing mark: whether that mark drops the
white space after it, and the text after it. -/
def wordBlock? (word : List Char) (cs : List Char) : Option (Bool × List Char) := do
  let rest ← afterWord? word (cs.dropWhile isSpace)
  let (trims, rest) := dropSign (rest.dropWhile isSpace)
  match rest with
  | '%' :: '\x7d' :: rest => some (trims, rest)
  | _ => none

/-- A raw block after its opening tag. -/
structure Raw where
  content : List Char
  /-- Whether the closing tag drops the white space before it. -/
  trimsEnd : Bool
  /-- Whether the closing tag drops the white space after it. -/
  trimsAfter : Bool
  rest : List Char

/-- Reads a raw block up to the tag that ends it. -/
def rawBody : List Char → Option Raw
  | [] => none
  | c :: cs =>
      let ending := if c = '\x7b' ∧ cs.head? = some '%' then
          let (trimsEnd, body) := dropSign (cs.drop 1)
          (wordBlock? ['e', 'n', 'd', 'r', 'a', 'w'] body).map fun (trimsAfter, rest) =>
            (⟨[], trimsEnd, trimsAfter, rest⟩ : Raw)
        else none
      match ending with
      | some raw => some raw
      | none => (rawBody cs).map fun raw => { raw with content := c :: raw.content }

/-! ## Between the marks -/

def sign2? (c d : Char) : Option Token :=
  if c = '/' ∧ d = '/' then some .floorDivide
  else if c = '*' ∧ d = '*' then some .power
  else if d ≠ '=' then none
  else if c = '=' then some .equal
  else if c = '!' then some .unequal
  else if c = '>' then some .greaterEqual
  else if c = '<' then some .lessEqual
  else none

def sign? (c : Char) : Option Token :=
  match c with
  | '+' => some .plus
  | '-' => some .minus
  | '*' => some .times
  | '/' => some .divide
  | '%' => some .modulo
  | '.' => some .dot
  | ',' => some .comma
  | ':' => some .colon
  | '~' => some .tilde
  | '=' => some .assign
  | '|' => some .pipe
  | '>' => some .greater
  | '<' => some .less
  | '(' => some .openParen
  | ')' => some .closeParen
  | '[' => some .openBracket
  | ']' => some .closeBracket
  | '\x7b' => some .openBrace
  | '\x7d' => some .closeBrace
  | _ => none

/-- What a sign adds to the count of open brackets. -/
def Token.nesting : Token → Int
  | .openParen | .openBracket | .openBrace => 1
  | .closeParen | .closeBracket | .closeBrace => -1
  | _ => 0

/-- Whether a word may go on with a character. -/
def continuesName (c : Char) : Bool := c.isAlphanum || c == '_'

/-- Reads the closing mark of an expression or a statement: whether it drops the white space after
it, and the text after it. -/
def closing? (isBlock : Bool) (cs : List Char) : Option (Bool × List Char) :=
  let (trims, rest) := dropSign cs
  match rest with
  | c :: '\x7d' :: rest => if c = (if isBlock then '%' else '\x7d') then some (trims, rest) else none
  | _ => none

/-- A word, literal or sign that a text starts with, and the text after it. -/
structure Lexeme where
  token : Token
  /-- How many line ends it holds; only a quoted text may hold any. -/
  lineEnds : Nat
  rest : List Char

/-- Cuts off the word, literal or sign that a text starts with. -/
def lexeme (line : Nat) (c : Char) (cs : List Char) : Except LexFault Lexeme :=
  match cs.head?.bind (sign2? c) with
  | some t => .ok ⟨t, 0, cs.drop 1⟩
  | none =>
      match sign? c with
      | some t => .ok ⟨t, 0, cs⟩
      | none =>
          if c = '\'' ∨ c = '"' then
            match quotedBody c cs with
            | none => .error ⟨.malformed, some line⟩
            | some (body, rest) =>
                match unescape? 0 none body with
                | none => .error ⟨.badEscape, none⟩
                | some s =>
                    .ok ⟨.string (String.ofList s) (!body.contains '\\'), newlines body, rest⟩
          else if c.isDigit then
            match numberLiteral? (c :: cs) with
            | none => .error ⟨.malformed, some line⟩
            | some (.int n, rest) => .ok ⟨.int n, 0, rest⟩
            | some (.float x, rest) => .ok ⟨.float x, 0, rest⟩
          else if startsName c then
            .ok ⟨.name (String.ofList (c :: cs.takeWhile continuesName)), 0,
              cs.dropWhile continuesName⟩
          else .error ⟨.malformed, some line⟩

/-! ## The whole template -/

/-- Where cutting is. -/
inductive Place where
  /-- In text; the flag asks to drop the white space it starts with. -/
  | text (trims : Bool)
  /-- Between the marks of a statement or of an expression, with so many brackets open. -/
  | code (isBlock : Bool) (open_ : Int)

/-- A piece of text, unless it is empty. -/
def Tokens.text (content : List Char) (line : Nat) (ts : Tokens) : Tokens :=
  if content = [] then ts else ts.cons (.text content) line

/-- Cuts up a text in a number of steps. -/
def cut : Nat → Place → Nat → List Char → Tokens
  | 0, _, _, _ => .done
  | n + 1, .text trims, line, cs =>
      let start := if trims then Text.trimStart cs else cs
      let line := if trims then line + newlines (cs.takeWhile Text.isBlank) else line
      match findMark start with
      | (lead, none) => .text lead line .done
      | (lead, some (mark, rest)) =>
          let (trimsLead, rest) := dropSign rest
          let after := line + newlines lead
          .text (if trimsLead then Text.trimEnd lead else lead) line <|
            match mark with
            | .comment =>
                match commentBody rest with
                | none => .stop .malformed (some after)
                | some (body, rest) =>
                    cut n (.text (body.getLast? == some '-')) (after + newlines body) rest
            | .print => .cons .openPrint after (cut n (.code false 0) after rest)
            | .block =>
                match wordBlock? ['r', 'a', 'w'] rest with
                | none => .cons .openBlock after (cut n (.code true 0) after rest)
                | some (trimsStart, body) =>
                    let inside := after + newlines (rest.take (rest.length - body.length))
                    match rawBody body with
                    | none => .stop .malformed (some inside)
                    | some raw =>
                        let content := if trimsStart then Text.trimStart raw.content else raw.content
                        let content := if raw.trimsEnd then Text.trimEnd content else content
                        .cons (.text content) inside
                          (cut n (.text raw.trimsAfter)
                            (inside + newlines (body.take (body.length - raw.rest.length)))
                            raw.rest)
  | n + 1, .code isBlock nesting, line, cs =>
      match cs with
      | [] => .done
      | c :: more =>
          match (if nesting = 0 then closing? isBlock cs else none) with
          | some (trims, rest) =>
              .cons (if isBlock then .closeBlock else .closePrint) line (cut n (.text trims) line rest)
          | none =>
              if isSpace c then
                cut n (.code isBlock nesting) (if c = '\n' then line + 1 else line) more
              else
                match lexeme line c more with
                | .error f => ⟨[], some f⟩
                | .ok l =>
                    .cons l.token line
                      (cut n (.code isBlock (nesting + l.token.nesting))
                        (line + l.lineEnds) l.rest)

/-- The tokens of a template. -/
def Tokens.ofText (keepsNewline : Bool) (text : List Char) : Tokens :=
  let text := if keepsNewline then text else Text.dropLineEnd text
  cut (text.length + 1) (.text false) 1 text

end Stencil.Template
