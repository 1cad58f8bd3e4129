/-!
# Lines

Cutting a text into lines at newlines. `split` keeps every piece between two separators; `lines`
is the reader's notion: a final newline opens no further line, and a carriage return directly before
a newline belongs to the line ending.
-/

namespace Stencil.Text

/-- The pieces of a text between occurrences of a separator; there is always at least one. -/
def split (sep : Char) : List Char → List (List Char)
  | [] => [[]]
  | c :: cs =>
      if c = sep then [] :: split sep cs
      else
        match split sep cs with
        | [] => [[c]]
        | piece :: pieces => (c :: piece) :: pieces

theorem split_ne_nil (sep : Char) (cs : List Char) : split sep cs ≠ [] := by
  cases cs with
  | nil => simp [split]
  | cons c cs =>
      unfold split
      split
      · simp
      · split <;> simp

/-- Joins pieces with a separator between them. -/
def join (sep : List Char) : List (List Char) → List Char
  | [] => []
  | [piece] => piece
  | piece :: pieces => piece ++ sep ++ join sep pieces

/-- A line without the carriage return that belongs to its ending. -/
def dropReturn (line : List Char) : List Char :=
  if line.getLast? = some '\r' then line.dropLast else line

/-- The lines among the pieces between newlines: every piece but the last was ended by a newline,
and the last counts only when it holds a character. -/
def linesOfPieces : List (List Char) → List (List Char)
  | [] => []
  | [last] => if last = [] then [] else [last]
  | piece :: pieces => dropReturn piece :: linesOfPieces pieces

def lines (cs : List Char) : List (List Char) := linesOfPieces (split '\n' cs)

/-- A text without the line ending it ends with. A carriage return at the end goes too when no newline
follows it. -/
def dropLineEnd (cs : List Char) : List Char :=
  dropReturn (if cs.getLast? = some '\n' then cs.dropLast else cs)

@[simp] theorem lines_nil : lines [] = [] := rfl

/-- A separator-free text is one piece. -/
theorem split_of_not_mem {sep : Char} {cs : List Char} (h : sep ∉ cs) : split sep cs = [cs] := by
  induction cs with
  | nil => rfl
  | cons c cs ih =>
      have hc : c ≠ sep := fun e => h (by simp [e])
      have hs : sep ∉ cs := fun m => h (by simp [m])
      simp [split, hc, ih hs]

/-- Text up to a separator is the first piece. -/
theorem split_append_cons {sep : Char} {a : List Char} (h : sep ∉ a) (b : List Char) :
    split sep (a ++ sep :: b) = a :: split sep b := by
  induction a with
  | nil => simp [split]
  | cons c a ih =>
      have hc : c ≠ sep := fun e => h (by simp [e])
      have hs : sep ∉ a := fun m => h (by simp [m])
      simp [split, hc, ih hs]

/-- Joining the pieces gives the text back. -/
theorem join_split (sep : Char) (cs : List Char) : join [sep] (split sep cs) = cs := by
  induction cs with
  | nil => rfl
  | cons c cs ih =>
      unfold split
      split
      · rename_i h
        cases hs : split sep cs with
        | nil => exact absurd hs (split_ne_nil sep cs)
        | cons p ps => rw [hs] at ih; simp [join, ih, h]
      · cases hs : split sep cs with
        | nil => exact absurd hs (split_ne_nil sep cs)
        | cons p ps =>
            rw [hs] at ih
            cases ps with
            | nil => simp_all [join]
            | cons q qs => simp_all [join]

end Stencil.Text
