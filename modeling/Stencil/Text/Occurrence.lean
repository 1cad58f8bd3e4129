/-!
# Occurrences

Where one text occurs in another, and cutting a text at the first occurrence of a word.

Main statement: a text occurs in another exactly when it is an infix of it (`occursIn_iff`).
-/

namespace Stencil.Text

/-- Whether a text occurs in another. -/
def occursIn (needle : List Char) : List Char → Bool
  | [] => needle.isEmpty
  | c :: cs => needle.isPrefixOf (c :: cs) || occursIn needle cs

/-- The text before the first occurrence of a word, and the text after it. -/
def cutAt (word : List Char) : List Char → Option (List Char × List Char)
  | [] => if word.isEmpty then some ([], []) else none
  | c :: cs =>
      if word.isPrefixOf (c :: cs) then some ([], (c :: cs).drop word.length)
      else (cutAt word cs).map fun (lead, rest) => (c :: lead, rest)

/-- **A text occurs in another exactly when it is an infix of it.** -/
theorem occursIn_iff {needle cs : List Char} : occursIn needle cs = true ↔ needle <:+: cs := by
  induction cs with
  | nil => simp [occursIn]
  | cons c cs ih => simp [occursIn, ih, List.infix_cons_iff]

end Stencil.Text
