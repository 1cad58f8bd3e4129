/-!
# Quoted values in KEY=VALUE text

A value in quotes runs to the first quote of its kind, over line ends if need be. In single quotes
every character stands for itself; in double quotes a backslash and the character after it belong
together, so an escaped quote does not close the value. The closing quote is sought line by line,
and the escapes are resolved afterwards in the lines joined.

`decode?` reads a value in double quotes in one pass, and `encode` writes one.
-/

namespace Stencil.KeyValue

/-- The two kinds of quotes. -/
inductive Quote where
  | single
  | double
  deriving DecidableEq, Repr

def Quote.char : Quote → Char
  | .single => '\''
  | .double => '"'

def Quote.ofChar? (c : Char) : Option Quote :=
  if c = '"' then some .double else if c = '\'' then some .single else none

/-! ## Escapes -/

/-- The character that a letter after a backslash stands for. -/
def escaped? (c : Char) : Option Char :=
  if c = 'n' then some '\n'
  else if c = 'r' then some '\r'
  else if c = 't' then some '\t'
  else if c = '"' then some '"'
  else if c = '\\' then some '\\'
  else none

/-- Resolves the escapes of a text. A backslash before any other character stays, and so does one at
the end. -/
def unescape : List Char → List Char
  | [] => []
  | [c] => [c]
  | c :: d :: cs =>
      if c = '\\' then
        match escaped? d with
        | some x => x :: unescape cs
        | none => c :: d :: unescape cs
      else c :: unescape (d :: cs)

/-- A character as it is written inside double quotes. -/
def encodeChar (c : Char) : List Char :=
  if c = '\\' then ['\\', '\\']
  else if c = '"' then ['\\', '"']
  else if c = '\n' then ['\\', 'n']
  else if c = '\r' then ['\\', 'r']
  else if c = '\t' then ['\\', 't']
  else [c]

/-- Writes a text so that it can stand between double quotes on one line. -/
def encode (cs : List Char) : List Char := cs.flatMap encodeChar

@[simp] theorem encode_nil : encode [] = [] := rfl

@[simp] theorem encode_cons (c : Char) (cs : List Char) :
    encode (c :: cs) = encodeChar c ++ encode cs := rfl

theorem unescape_cons_of_ne {c : Char} (h : c ≠ '\\') (cs : List Char) :
    unescape (c :: cs) = c :: unescape cs := by
  cases cs with
  | nil => simp [unescape]
  | cons d cs => simp [unescape, h]

/-- Reads a text in double quotes after its opening quote, in one pass: its value, and what follows the
closing quote. -/
def decode? : List Char → Option (List Char × List Char)
  | [] => none
  | c :: cs =>
      if c = '"' then some ([], cs)
      else if c = '\\' then
        match cs with
        | [] => none
        | d :: cs =>
            (decode? cs).map fun (value, rest) =>
              (match escaped? d with
                | some x => x :: value
                | none => c :: d :: value,
               rest)
      else (decode? cs).map fun (value, rest) => (c :: value, rest)

theorem decode?_quote (cs : List Char) : decode? ('"' :: cs) = some ([], cs) := by
  rw [decode?.eq_def]; simp

theorem decode?_cons_of_ne {c : Char} (hq : c ≠ '"') (hb : c ≠ '\\') (cs : List Char) :
    decode? (c :: cs) = (decode? cs).map fun (value, rest) => (c :: value, rest) := by
  rw [decode?.eq_def]; simp [hq, hb]

/-! ## The closing quote -/

/-- The text of one line before the closing quote and after it. The line is read from its start, so
a backslash at the end of the line before has no effect on it. -/
def closing? (quote : Quote) : List Char → Option (List Char × List Char)
  | [] => none
  | [c] => if c = quote.char then some ([], []) else none
  | c :: d :: cs =>
      if c = quote.char then some ([], d :: cs)
      else if quote = .double ∧ c = '\\' then
        (closing? quote cs).map fun (a, b) => (c :: d :: a, b)
      else (closing? quote (d :: cs)).map fun (a, b) => (c :: a, b)

/-- A quoted value as it was found: the text between the quotes, what follows the closing quote on
its line, and how many further lines the value took. -/
structure Found where
  inner : List Char
  trailing : List Char
  used : Nat
  deriving DecidableEq, Repr

/-- Finds the end of a quoted value that starts on a line and may go on over the lines that
follow. -/
def find? (quote : Quote) (first : List Char) (following : List (List Char)) : Option Found :=
  match closing? quote first with
  | some (inner, trailing) => some ⟨inner, trailing, 0⟩
  | none =>
      match following with
      | [] => none
      | next :: following =>
          (find? quote next following).map fun f =>
            ⟨first ++ '\n' :: f.inner, f.trailing, f.used + 1⟩

/-- The value of a quoted text. -/
def Quote.value (quote : Quote) (inner : List Char) : List Char :=
  match quote with
  | .single => inner
  | .double => unescape inner

end Stencil.KeyValue
