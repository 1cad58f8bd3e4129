import Stencil.Yaml.Token.Character

/-!
# Folding

White space inside a scalar of several words. Blanks on one line stay as they are. Where lines are
crossed, the blanks around the line ends are dropped; a single newline becomes a space, and of
several the first is dropped.
-/

namespace Stencil.Yaml

/-- White space that has been passed since the last word. -/
inductive Gap where
  /-- Blanks on one line. -/
  | blanks (text : List Char)
  /-- Line ends, and how many columns of the present line have been passed. The first line end is
  absent where it was escaped. -/
  | breaks (first : Option Char) (more : List Char) (column : Nat)
  deriving DecidableEq, Repr

namespace Gap

/-- No white space. -/
def empty : Gap := .blanks []

/-- The gap after an escaped line end. -/
def joined : Gap := .breaks none [] 0

def addBlank (g : Gap) (c : Char) : Gap :=
  match g with
  | .blanks text => .blanks (text ++ [c])
  | .breaks first more column => .breaks first more (column + 1)

/-- A gap with one more line end. -/
def addBreak (g : Gap) (c : Char) : Gap :=
  match g with
  | .blanks _ => .breaks (some (breakChar c)) [] 0
  | .breaks first more _ => .breaks first (more ++ [breakChar c]) 0

/-- The column of the present line, when a line end was crossed. -/
def column? : Gap → Option Nat
  | .blanks _ => none
  | .breaks _ _ column => some column

/-- Whether a line end was crossed. -/
def isBroken (g : Gap) : Bool := g.column?.isSome

/-- What the white space between two words turns into. -/
def text : Gap → List Char
  | .blanks text => text
  | .breaks none more _ => more
  | .breaks (some first) more _ =>
      if first = '\n' then (if more = [] then [' '] else more) else first :: more

@[simp] theorem text_empty : empty.text = [] := rfl

@[simp] theorem column?_empty : empty.column? = none := rfl

@[simp] theorem isBroken_empty : empty.isBroken = false := rfl

end Gap

end Stencil.Yaml
