/-!
# Tokens of templates

The pieces a template is cut into: text that stands for itself, the marks around expressions and
statements, and the words and signs between those marks.
-/

namespace Stencil.Template

/-- A piece of a template. -/
inductive Token where
  | text (content : List Char)
  | openPrint
  | closePrint
  | openBlock
  | closeBlock
  | name (s : String)
  /-- A string, and whether it is written without escapes. -/
  | string (s : String) (plain : Bool)
  | int (n : Nat)
  | float (x : Float)
  | plus
  | minus
  | times
  | divide
  | floorDivide
  | modulo
  | power
  | dot
  | comma
  | colon
  | tilde
  | assign
  | pipe
  | equal
  | unequal
  | less
  | lessEqual
  | greater
  | greaterEqual
  | openParen
  | closeParen
  | openBracket
  | closeBracket
  | openBrace
  | closeBrace

/-- Whether a token is a word with a given spelling. -/
def Token.isName (t : Token) (s : String) : Bool :=
  match t with
  | .name n => n == s
  | _ => false

def Token.isNameIn (t : Token) (names : List String) : Bool :=
  match t with
  | .name n => names.contains n
  | _ => false

/-- Whether two tokens are the same sign. -/
def Token.isSign : Token → Token → Bool
  | .openPrint, .openPrint | .closePrint, .closePrint | .openBlock, .openBlock
  | .closeBlock, .closeBlock | .plus, .plus | .minus, .minus | .times, .times
  | .divide, .divide | .floorDivide, .floorDivide | .modulo, .modulo | .power, .power
  | .dot, .dot | .comma, .comma | .colon, .colon | .tilde, .tilde | .assign, .assign
  | .pipe, .pipe | .equal, .equal | .unequal, .unequal | .less, .less
  | .lessEqual, .lessEqual | .greater, .greater | .greaterEqual, .greaterEqual
  | .openParen, .openParen | .closeParen, .closeParen | .openBracket, .openBracket
  | .closeBracket, .closeBracket | .openBrace, .openBrace | .closeBrace, .closeBrace => true
  | _, _ => false

/-- A token with the line it starts on. -/
structure Placed where
  token : Token
  line : Nat

end Stencil.Template
