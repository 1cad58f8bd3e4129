/-!
# Texts on one line

A workflow command is one line. A text that stands in it has its line ends and percent signs replaced by
percent escapes, and the runner puts them back.

Main statements: an escaped text has no line end (`newline_not_mem_escape`, `return_not_mem_escape`), and
one pass from the left reads it back (`decode_escape`).
-/

namespace Stencil.Text.Line

/-- A character as it stands in a workflow command. -/
def escapeChar (c : Char) : List Char :=
  if c = '%' then ['%', '2', '5']
  else if c = '\r' then ['%', '0', 'D']
  else if c = '\n' then ['%', '0', 'A']
  else [c]

/-- A text as it stands in a workflow command. -/
def escape (cs : List Char) : List Char := cs.flatMap escapeChar

/-- Replaces the occurrences of a word of three characters by a character, from the left. -/
def unescapeOne (a b : Char) (new : Char) : List Char → List Char
  | '%' :: x :: y :: rest =>
      if x = a ∧ y = b then new :: unescapeOne a b new rest
      else '%' :: unescapeOne a b new (x :: y :: rest)
  | c :: rest => c :: unescapeOne a b new rest
  | [] => []

/-- A text of a workflow command as the runner reads it: carriage returns, then newlines, then percent
signs are put back. -/
def unescape (cs : List Char) : List Char :=
  unescapeOne '2' '5' '%' (unescapeOne '0' 'A' '\n' (unescapeOne '0' 'D' '\r' cs))

/-- The text that a text of a workflow command stands for, read in one pass. -/
def decode : List Char → List Char
  | '%' :: '2' :: '5' :: rest => '%' :: decode rest
  | '%' :: '0' :: 'D' :: rest => '\r' :: decode rest
  | '%' :: '0' :: 'A' :: rest => '\n' :: decode rest
  | c :: rest => c :: decode rest
  | [] => []

/-! ## What escaping does -/

@[simp] theorem escape_nil : escape [] = [] := rfl

@[simp] theorem escape_cons (c : Char) (cs : List Char) :
    escape (c :: cs) = escapeChar c ++ escape cs := rfl

theorem newline_not_mem_escapeChar (c : Char) : '\n' ∉ escapeChar c := by
  unfold escapeChar
  repeat' split
  all_goals simp_all
  all_goals exact fun h => ‹¬c = '\n'› h.symm

theorem return_not_mem_escapeChar (c : Char) : '\r' ∉ escapeChar c := by
  unfold escapeChar
  repeat' split
  all_goals simp_all
  all_goals exact fun h => ‹¬c = '\r'› h.symm

/-- **An escaped text has no newline.** -/
theorem newline_not_mem_escape (cs : List Char) : '\n' ∉ escape cs := by
  simp only [escape, List.mem_flatMap, not_exists, not_and]
  exact fun c _ => newline_not_mem_escapeChar c

/-- **An escaped text has no carriage return.** -/
theorem return_not_mem_escape (cs : List Char) : '\r' ∉ escape cs := by
  simp only [escape, List.mem_flatMap, not_exists, not_and]
  exact fun c _ => return_not_mem_escapeChar c

theorem decode_cons_of_ne {c : Char} (h : c ≠ '%') (cs : List Char) :
    decode (c :: cs) = c :: decode cs := by
  rw [decode]
  all_goals
    intros
    simp_all

/-- **One pass reads an escaped text back.** -/
theorem decode_escape (cs : List Char) : decode (escape cs) = cs := by
  induction cs with
  | nil => rfl
  | cons c cs ih =>
      by_cases h1 : c = '%'
      · subst h1; simp [escapeChar, decode, ih]
      by_cases h2 : c = '\r'
      · subst h2; simp [escapeChar, decode, ih]
      by_cases h3 : c = '\n'
      · subst h3; simp [escapeChar, decode, ih]
      simp [escapeChar, h1, h2, h3, decode_cons_of_ne h1, ih]

/-! ## On strings -/

/-- A string as it stands in a workflow command. -/
def escaped (s : String) : String := String.ofList (escape s.toList)

end Stencil.Text.Line
