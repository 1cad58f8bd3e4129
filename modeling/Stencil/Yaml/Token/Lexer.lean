import Stencil.Yaml.Token.Property
import Stencil.Yaml.Token.Flow
import Stencil.Yaml.Token.Block

/-!
# Cutting a YAML text into tokens

`Lexer` is a place in a text with what is known there: the open block collections by their columns,
the open brackets, and for each bracket whether the last node could turn out to be the key of a
mapping. A colon decides that: then the `key` token, and the start of the mapping if it begins there,
are put in front of the node after the fact.

Each step cuts one token off the text, so a text of `n` characters is cut up after `n + 1` steps.
-/

namespace Stencil.Yaml

/-- A node that would be a key if a colon followed it: how many tokens stand before it, where it
starts, and whether nothing else can stand there. -/
structure Candidate where
  before : Nat
  position : Position
  required : Bool
  deriving DecidableEq, Repr

/-- A place in a text between two tokens. -/
structure Lexer where
  rest : List Char
  position : Position
  /-- The least column of what belongs to the innermost block collection: one more than the column
  of the collection itself, and zero outside of all. -/
  margin : Nat
  /-- The margins of the block collections around it. -/
  outerMargins : List Nat
  /-- Whether a key without an indicator may start here. -/
  keyAllowed : Bool
  /-- The possible key inside the innermost brackets. -/
  candidate : Option Candidate
  /-- The possible keys outside of them, for each pair of brackets that is open. -/
  outerCandidates : List (Option Candidate)
  /-- The tokens so far, the latest first. -/
  tokens : List Token
  /-- How many tokens there are. -/
  count : Nat
  deriving DecidableEq, Repr

namespace Lexer

def start (text : List Char) : Lexer :=
  ⟨text, .start, 0, [], true, none, [], [], 0⟩

/-- Whether the place is inside brackets. -/
def inFlow (s : Lexer) : Bool := !s.outerCandidates.isEmpty

/-- The place where the text goes on with `rest`, a later part of it. -/
def moveTo (s : Lexer) (rest : List Char) : Lexer :=
  { s with
    rest := rest
    position := s.position.advance (s.rest.length - rest.length) s.rest }

def emit (s : Lexer) (t : Token) : Lexer :=
  { s with tokens := t :: s.tokens, count := s.count + 1 }

/-- Puts a token after the first `n` tokens. -/
def emitAt (s : Lexer) (n : Nat) (t : Token) : Lexer :=
  { s with
    tokens := s.tokens.take (s.count - n) ++ t :: s.tokens.drop (s.count - n)
    count := s.count + 1 }

/-! ## Possible keys -/

/-- Gives up a possible key; none if the node had to be a key. -/
def dropCandidate (s : Lexer) : Option Lexer :=
  match s.candidate with
  | some c => if c.required then none else some { s with candidate := none }
  | none => some s

/-- Whether a node can no longer be a key: keys end on the line they start on, and within a thousand
and twenty-four bytes. -/
def isStale (position : Position) (c : Candidate) : Bool :=
  c.position.line < position.line || c.position.index + 1024 < position.index

/-- Gives up the possible keys that are too far back; none if one of those had to be a key. -/
def dropStale (s : Lexer) : Option Lexer :=
  let stale := fun c : Option Candidate => c.any (isStale s.position)
  let refused := fun c : Option Candidate => c.any fun c => isStale s.position c && c.required
  if refused s.candidate || s.outerCandidates.any refused then none
  else
    let keep := fun c : Option Candidate => if stale c then none else c
    some { s with
      candidate := keep s.candidate
      outerCandidates := s.outerCandidates.map keep }

/-- Notes that the node that starts here may be a key. At the column of the innermost block
collection, outside brackets, it has to be one. -/
def noteCandidate (s : Lexer) : Option Lexer :=
  if s.keyAllowed then do
    let s ← s.dropCandidate
    some { s with
      candidate := some ⟨s.count, s.position, !s.inFlow && s.margin == s.position.column + 1⟩ }
  else some s

/-! ## Indentation -/

/-- Closes the block collections that a line with the given margin lies outside of. -/
def closeBlocks (s : Lexer) (margin : Nat) : Lexer :=
  if s.inFlow then s
  else
    let closed := (s.margin :: s.outerMargins).takeWhile (margin < ·)
    match (s.margin :: s.outerMargins).drop closed.length with
    | [] => s
    | inner :: outer =>
        { s with
          margin := inner
          outerMargins := outer
          tokens := List.replicate closed.length .blockEnd ++ s.tokens
          count := s.count + closed.length }

/-- Whether a block collection opens at a column. -/
def opensBlock (s : Lexer) (column : Nat) : Bool := !s.inFlow && s.margin ≤ column

/-- Opens a block collection at a column. -/
def enter (s : Lexer) (column : Nat) : Lexer :=
  { s with margin := column + 1, outerMargins := s.margin :: s.outerMargins }

/-- Opens a block collection here, unless one is open at this column. -/
def openBlock (s : Lexer) (opening : Token) : Lexer :=
  if s.opensBlock s.position.column then (s.enter s.position.column).emit opening else s

/-! ## White space -/

/-- Drops white space, comments and line ends up to the next token. A tab may not stand where a key
could start. A mark of the encoding at the start of a line is dropped too, and takes up a column. -/
def skipToToken (keyAllowed flow : Bool) (column : Nat) (comment : Bool) :
    List Char → List Char × Bool
  | [] => ([], keyAllowed)
  | c :: cs =>
      if isBreak c then
        if returnsBeforeNewline c cs then skipToToken keyAllowed flow column comment cs
        else skipToToken (keyAllowed || !flow) flow 0 false cs
      else if comment then skipToToken keyAllowed flow (column + 1) true cs
      else if c = ' ' ∨ (c = '\t' ∧ (flow || !keyAllowed)) then
        skipToToken keyAllowed flow (column + 1) false cs
      else if c = '\ufeff' ∧ column = 0 then skipToToken keyAllowed flow 1 false cs
      else if c = '#' then skipToToken keyAllowed flow (column + 1) true cs
      else (c :: cs, keyAllowed)

/-- Moves to the next token. -/
def atToken (s : Lexer) : Lexer :=
  let (rest, keyAllowed) := skipToToken s.keyAllowed s.inFlow s.position.column false s.rest
  { s.moveTo rest with keyAllowed := keyAllowed }

/-! ## One token -/

/-- Ends all that is open at the end of a document. -/
def endDocument (s : Lexer) : Option Lexer := do
  let s ← (s.closeBlocks 0).dropCandidate
  some { s with keyAllowed := false }

/-- A directive, which takes up its line. -/
def directive (s : Lexer) (cs : List Char) : Option Lexer := do
  let s ← s.endDocument
  let (token, rest) ← directive? cs
  let rest ← lineEnd? rest
  some ((s.moveTo rest).emit token)

/-- A mark between documents. -/
def documentMark (s : Lexer) (token : Token) : Option Lexer := do
  let s ← s.endDocument
  some ((s.moveTo (s.rest.drop 3)).emit token)

/-- An opening bracket. -/
def openFlow (s : Lexer) (token : Token) (cs : List Char) : Option Lexer := do
  let s ← s.noteCandidate
  some { (s.moveTo cs).emit token with
    candidate := none
    outerCandidates := s.candidate :: s.outerCandidates
    keyAllowed := true }

/-- A closing bracket. -/
def closeFlow (s : Lexer) (token : Token) (cs : List Char) : Option Lexer := do
  let s ← s.dropCandidate
  let s := match s.outerCandidates with
    | [] => s
    | c :: outer => { s with candidate := c, outerCandidates := outer }
  some { (s.moveTo cs).emit token with keyAllowed := false }

/-- A comma between the items in brackets. -/
def flowEntry (s : Lexer) (cs : List Char) : Option Lexer := do
  let s ← s.dropCandidate
  some { (s.moveTo cs).emit .flowEntry with keyAllowed := true }

/-- A hyphen in front of an item. -/
def blockEntry (s : Lexer) (cs : List Char) : Option Lexer := do
  if !s.inFlow && !s.keyAllowed then none
  else
    let s ← (s.openBlock .blockSequence).dropCandidate
    some { (s.moveTo cs).emit .blockEntry with keyAllowed := true }

/-- A question mark in front of a key. -/
def keyMark (s : Lexer) (cs : List Char) : Option Lexer := do
  if !s.inFlow && !s.keyAllowed then none
  else
    let s ← (s.openBlock .blockMapping).dropCandidate
    some { (s.moveTo cs).emit .key with keyAllowed := !s.inFlow }

/-- A colon in front of a value. The possible key, if there is one, is a key then. -/
def valueMark (s : Lexer) (cs : List Char) : Option Lexer :=
  match s.candidate with
  | some c =>
      let s := { s.emitAt c.before .key with candidate := none, keyAllowed := false }
      let s := if s.opensBlock c.position.column then
          (s.enter c.position.column).emitAt c.before .blockMapping
        else s
      some ((s.moveTo cs).emit .value)
  | none =>
      if !s.inFlow && !s.keyAllowed then none
      else
        let s := s.openBlock .blockMapping
        some { (s.moveTo cs).emit .value with keyAllowed := !s.inFlow }

/-- A node, or a property of one, that may be the start of a key. -/
def node (s : Lexer) (read : Option (Token × List Char)) : Option Lexer := do
  let s ← s.noteCandidate
  let (token, rest) ← read
  some { (s.moveTo rest).emit token with keyAllowed := false }

/-- A block scalar. -/
def blockScalar (s : Lexer) (folded : Bool) (cs : List Char) : Option Lexer := do
  let s ← s.dropCandidate
  let (text, rest) ← Yaml.blockScalar folded s.margin cs
  some { (s.moveTo rest).emit (.scalar false (String.ofList text)) with keyAllowed := true }

/-- A plain scalar. A key may start after it if it ran over a line end. -/
def plainScalar (s : Lexer) : Option Lexer := do
  let s ← s.noteCandidate
  let p ← plain s.inFlow s.margin .empty false s.rest
  some { (s.moveTo p.rest).emit (.scalar true (String.ofList p.text)) with keyAllowed := p.broken }

/-- The characters that start another token than a plain scalar, or none. -/
def isIndicator (c : Char) : Bool :=
  c == '-' || c == '?' || c == ':' || c == ',' || c == '[' || c == ']' || c == '\x7b'
    || c == '\x7d' || c == '#' || c == '&' || c == '*' || c == '!' || c == '|' || c == '>'
    || c == '\'' || c == '"' || c == '%' || c == '@' || c == '\u0060'

/-- Whether a plain scalar may start with a character. -/
def startsPlain (flow : Bool) (c : Char) (cs : List Char) : Bool :=
  !(isGap c || isIndicator c)
    || (c == '-' && !cs.head?.any isBlank)
    || (!flow && (c == '?' || c == ':') && !startsGap cs)

/-- Cuts off the token that the text starts with. -/
def token (s : Lexer) (c : Char) (cs : List Char) : Option Lexer :=
  let flow := s.inFlow
  if s.position.column = 0 ∧ c = '%' then s.directive cs
  else if s.position.column = 0 ∧ startsDocumentMark (c :: cs) then
    s.documentMark (if c = '-' then .documentStart else .documentEnd)
  else if c = '[' then s.openFlow .flowSequence cs
  else if c = '\x7b' then s.openFlow .flowMapping cs
  else if c = ']' then s.closeFlow .flowSequenceEnd cs
  else if c = '\x7d' then s.closeFlow .flowMappingEnd cs
  else if c = ',' then s.flowEntry cs
  else if c = '-' ∧ startsGap cs then s.blockEntry cs
  else if c = '?' ∧ (flow || startsGap cs) then s.keyMark cs
  else if c = ':' ∧ (flow || startsGap cs) then s.valueMark cs
  else if c = '*' then
    s.node ((anchorName? cs).map fun (n, r) => (.alias (String.ofList n), r))
  else if c = '&' then
    s.node ((anchorName? cs).map fun (n, r) => (.anchor (String.ofList n), r))
  else if c = '!' then s.node (tag? flow (c :: cs))
  else if c = '|' ∧ !flow then s.blockScalar false cs
  else if c = '>' ∧ !flow then s.blockScalar true cs
  else if c = '\'' then
    s.node ((singleQuoted .empty cs).map fun (t, r) => (.scalar false (String.ofList t), r))
  else if c = '"' then
    s.node ((doubleQuoted (.text .empty) cs).map fun (t, r) =>
      (.scalar false (String.ofList t), r))
  else if startsPlain flow c cs then s.plainScalar
  else none

/-- Ends the text: what is open is closed as if a new line followed. -/
def finish (s : Lexer) : Option (List Token) :=
  s.endDocument.map fun s => s.tokens.reverse

/-- Cuts up the text in a number of steps. -/
def run : Nat → Lexer → Option (List Token)
  | 0, _ => none
  | n + 1, s => do
      let s ← s.atToken.dropStale
      match s.rest with
      | [] => s.finish
      | c :: cs =>
          let s ← (s.closeBlocks (s.position.column + 1)).token c cs
          run n s

end Lexer

/-- The tokens of a text; none if it is not a YAML text. -/
def tokens? (text : List Char) : Option (List Token) :=
  if text.all isAllowed then (Lexer.start text).run (text.length + 1) else none

end Stencil.Yaml
