import Stencil.Text.Lines

/-!
# What the lines of a text are

Every newline ends a line, and a carriage return directly before it belongs to the ending. What stands
after the last newline is a line when there is any.

Main statements: `lines_eq_iff`, and no line holds a newline (`newline_not_mem_of_mem_lines`).
-/

namespace Stencil.Text

/-- The lines that a text is made of. -/
inductive IsLines : List Char → List (List Char) → Prop
  | none : IsLines [] []
  | last {line : List Char} : line ≠ [] → '\n' ∉ line → IsLines line [line]
  | ended {line rest : List Char} {ls : List (List Char)} :
      '\n' ∉ line → line.getLast? ≠ some '\r' → IsLines rest ls →
      IsLines (line ++ '\n' :: rest) (line :: ls)
  | returned {line rest : List Char} {ls : List (List Char)} :
      '\n' ∉ line → IsLines rest ls → IsLines (line ++ '\r' :: '\n' :: rest) (line :: ls)

/-! ## Pieces -/

/-- A text holds no separator, or is a text without one, a separator and a shorter text. -/
@[elab_as_elim] theorem pieces_induction (sep : Char) {motive : List Char → Prop}
    (last : ∀ cs, sep ∉ cs → motive cs)
    (more : ∀ a b, sep ∉ a → motive b → motive (a ++ sep :: b)) (cs : List Char) : motive cs := by
  by_cases hm : sep ∈ cs
  · obtain ⟨a, b, he, hn⟩ := List.eq_append_cons_of_mem hm
    have hlt : b.length < cs.length := by rw [he, List.length_append, List.length_cons]; omega
    rw [he]
    exact more a b hn (pieces_induction sep last more b)
  · exact last cs hm
termination_by cs.length

/-- The pieces of two texts with a separator between them are those of the one and of the other. -/
theorem split_append (sep : Char) (a b : List Char) :
    split sep (a ++ sep :: b) = split sep a ++ split sep b := by
  induction a using pieces_induction sep with
  | last a h => rw [split_append_cons h, split_of_not_mem h, List.singleton_append]
  | more a c h ih =>
      rw [List.append_assoc, List.cons_append, split_append_cons h, ih, split_append_cons h,
        List.cons_append]

/-- A piece occurs in its text. -/
theorem infix_of_mem_split {sep : Char} {cs piece : List Char} (h : piece ∈ split sep cs) :
    piece <:+: cs := by
  induction cs using pieces_induction sep with
  | last cs hn =>
      rw [split_of_not_mem hn, List.mem_singleton] at h
      exact h ▸ List.infix_refl cs
  | more a b hn ih =>
      rw [split_append_cons hn] at h
      rcases List.mem_cons.mp h with rfl | h
      · exact (List.prefix_append piece (sep :: b)).isInfix
      · exact (ih h).trans ((List.suffix_cons sep b).trans (List.suffix_append a _)).isInfix

/-- A text that does not end with a separator has a last piece that is not empty. -/
theorem getLast?_split_ne {sep : Char} {cs : List Char} (hne : cs ≠ [])
    (h : cs.getLast? ≠ some sep) : (split sep cs).getLast? ≠ some [] := by
  induction cs using pieces_induction sep with
  | last cs hn => simpa [split_of_not_mem hn] using hne
  | more a b hn ih =>
      have hb : b ≠ [] := fun hb => h (by simp [hb])
      have hlast : (a ++ sep :: b).getLast? = b.getLast? := by
        rw [List.getLast?_append, List.getLast?_cons_of_ne_nil hb]
        simp [List.getLast?_eq_some_getLast hb]
      rw [split_append_cons hn, List.getLast?_cons_of_ne_nil (split_ne_nil sep b)]
      exact ih hb (hlast ▸ h)

/-! ## Cutting at the first newline -/

theorem lines_append_newline {line : List Char} (h : '\n' ∉ line) (rest : List Char) :
    lines (line ++ '\n' :: rest) = dropReturn line :: lines rest := by
  unfold lines
  rw [split_append_cons h]
  cases hs : split '\n' rest with
  | nil => exact absurd hs (split_ne_nil '\n' rest)
  | cons piece pieces => rfl

theorem lines_of_not_mem {line : List Char} (hne : line ≠ []) (h : '\n' ∉ line) :
    lines line = [line] := by
  simp [lines, split_of_not_mem h, linesOfPieces, hne]

@[simp] theorem dropReturn_append_return (line : List Char) :
    dropReturn (line ++ ['\r']) = line := by simp [dropReturn]

theorem dropReturn_of_ne {line : List Char} (h : line.getLast? ≠ some '\r') :
    dropReturn line = line := by simp [dropReturn, h]

theorem getLast?_append_of_ne_nil (cs : List Char) {ds : List Char} (h : ds ≠ []) :
    (cs ++ ds).getLast? = ds.getLast? := by
  rw [List.getLast?_append, List.getLast?_eq_some_getLast h, Option.some_or]

theorem dropReturn_append_of_ne (indent : List Char) {line : List Char} (h : line ≠ []) :
    dropReturn (indent ++ line) = indent ++ dropReturn line := by
  unfold dropReturn
  rw [getLast?_append_of_ne_nil indent h]
  split
  · rw [List.dropLast_append_of_ne_nil h]
  · rfl

theorem dropReturn_subset (line : List Char) : dropReturn line ⊆ line := by
  unfold dropReturn
  split
  · exact (List.dropLast_sublist line).subset
  · exact List.Subset.refl line

/-! ## All lines -/

theorem lines_of_isLines {cs : List Char} {ls : List (List Char)} (h : IsLines cs ls) :
    lines cs = ls := by
  induction h with
  | none => rfl
  | last hne hn => exact lines_of_not_mem hne hn
  | ended hn hr _ ih => rw [lines_append_newline hn, dropReturn_of_ne hr, ih]
  | @returned line rest ls hn _ ih =>
      have hn' : '\n' ∉ line ++ ['\r'] := by simp [hn]
      have he : line ++ '\r' :: '\n' :: rest = line ++ ['\r'] ++ '\n' :: rest := by simp
      rw [he, lines_append_newline hn', dropReturn_append_return, ih]

theorem isLines_lines (cs : List Char) : IsLines cs (lines cs) := by
  induction cs using pieces_induction '\n' with
  | last cs hn =>
      by_cases hne : cs = []
      · subst hne
        exact .none
      · rw [lines_of_not_mem hne hn]
        exact .last hne hn
  | more line rest hn ih =>
      rw [lines_append_newline hn]
      by_cases hr : line.getLast? = some '\r'
      · obtain ⟨before, rfl⟩ := List.getLast?_eq_some_iff.mp hr
        have hb : '\n' ∉ before := fun h => hn (List.mem_append_left _ h)
        rw [dropReturn_append_return, List.append_assoc]
        exact .returned hb ih
      · rw [dropReturn_of_ne hr]
        exact .ended hn hr ih

/-- **The lines of a text** are those it is made of, and no text is made of lines in two ways. -/
theorem lines_eq_iff {cs : List Char} {ls : List (List Char)} : lines cs = ls ↔ IsLines cs ls :=
  ⟨fun h => h ▸ isLines_lines cs, lines_of_isLines⟩

/-- **No line holds a newline.** -/
theorem newline_not_mem_of_mem_lines {cs line : List Char} (h : line ∈ lines cs) :
    '\n' ∉ line := by
  have hl := isLines_lines cs
  generalize lines cs = ls at h hl
  induction hl with
  | none => cases h
  | last _ hn =>
      rw [List.mem_singleton] at h
      exact h ▸ hn
  | ended hn _ _ ih | returned hn _ ih =>
      rcases List.mem_cons.mp h with rfl | h
      · exact hn
      · exact ih h

/-- Every character of a line is one of the text. -/
theorem mem_of_mem_lines {cs line : List Char} (h : line ∈ lines cs) {c : Char} (hc : c ∈ line) :
    c ∈ cs := by
  have hl := isLines_lines cs
  generalize lines cs = ls at h hl
  induction hl with
  | none => cases h
  | last => exact List.mem_singleton.mp h ▸ hc
  | ended _ _ _ ih | returned _ _ ih =>
      rcases List.mem_cons.mp h with rfl | h
      · exact List.mem_append_left _ hc
      · exact List.mem_append_right _ (by simp [ih h])

/-! ## A newline behind a text -/

/-- The lines of two texts with a newline between them: the first text ends its last line with it. -/
theorem lines_append (a b : List Char) :
    lines (a ++ '\n' :: b) = lines (a ++ ['\n']) ++ lines b := by
  induction a using pieces_induction '\n' with
  | last a h => rw [lines_append_newline h, lines_append_newline h]; rfl
  | more a c h ih =>
      rw [List.append_assoc, List.append_assoc, List.cons_append, List.cons_append,
        lines_append_newline h, lines_append_newline h, ih, List.cons_append]

theorem length_lines_newline (a : List Char) :
    (lines (a ++ ['\n'])).length = a.count '\n' + 1 := by
  induction a using pieces_induction '\n' with
  | last a h =>
      rw [lines_append_newline h, List.count_eq_zero.mpr h]
      rfl
  | more a c h ih =>
      rw [List.append_assoc, List.cons_append, lines_append_newline h, List.length_cons, ih,
        List.count_append, List.count_cons_self, List.count_eq_zero.mpr h, Nat.zero_add]

/-- A newline at the end of a text makes a blank line of its own, or it ends the last line, which loses a
carriage return then. -/
theorem lines_newline (a : List Char) :
    lines (a ++ ['\n']) = lines a ++ [[]]
      ∨ ∃ ls last, lines a = ls ++ [last] ∧ lines (a ++ ['\n']) = ls ++ [dropReturn last] := by
  induction a using pieces_induction '\n' with
  | last a h =>
      by_cases hne : a = []
      · subst hne
        exact .inl rfl
      · exact .inr ⟨[], a, lines_of_not_mem hne h, lines_append_newline h []⟩
  | more a c h ih =>
      rw [List.append_assoc, List.cons_append, lines_append_newline h, lines_append_newline h]
      rcases ih with ih | ⟨ls, last, hc, he⟩
      · exact .inl (by rw [ih, List.cons_append])
      · exact .inr ⟨dropReturn a :: ls, last, by rw [hc, List.cons_append], by rw [he, List.cons_append]⟩

/-! ## Joining lines -/

theorem join_cons_cons (line next : List Char) (more : List (List Char)) :
    join ['\n'] (line :: next :: more) = line ++ '\n' :: join ['\n'] (next :: more) := by
  simp [join]

/-- Further lines are joined behind the first, each with a newline in front of it. -/
theorem join_cons (first : List Char) (following : List (List Char)) :
    join ['\n'] (first :: following) = first ++ following.flatMap ('\n' :: ·) := by
  induction following generalizing first with
  | nil => simp [join]
  | cons next following ih => rw [join_cons_cons, ih, List.flatMap_cons, List.cons_append]

theorem join_append (first : List Char) (more after : List (List Char)) :
    join ['\n'] (first :: (more ++ after))
      = join ['\n'] (first :: more) ++ after.flatMap ('\n' :: ·) := by
  rw [join_cons, join_cons, List.flatMap_append, List.append_assoc]

theorem mem_join {ls : List (List Char)} {c : Char} (h : c ∈ join ['\n'] ls) :
    c = '\n' ∨ ∃ l ∈ ls, c ∈ l := by
  cases ls with
  | nil => cases h
  | cons line more =>
      rw [join_cons, List.mem_append, List.mem_flatMap] at h
      rcases h with h | ⟨l, hl, h⟩
      · exact .inr ⟨line, List.mem_cons_self, h⟩
      · exact (List.mem_cons.mp h).imp_right fun hc => ⟨l, List.mem_cons_of_mem _ hl, hc⟩

/-- Lines with newlines between them, and possibly one more at the end, are the lines of their text. -/
theorem isLines_join {ls : List (List Char)} {tail : List Char} (ht : tail = [] ∨ tail = ['\n'])
    (h : ∀ l ∈ ls, l ≠ [] ∧ '\n' ∉ l ∧ l.getLast? ≠ some '\r') (hne : ls ≠ []) :
    IsLines (join ['\n'] ls ++ tail) ls := by
  induction ls with
  | nil => exact absurd rfl hne
  | cons line more ih =>
      obtain ⟨hline, hn, hr⟩ := h line List.mem_cons_self
      have hmore := ih fun l hl => h l (List.mem_cons_of_mem _ hl)
      cases more with
      | nil =>
          rcases ht with rfl | rfl
          · rw [List.append_nil]
            exact .last hline hn
          · exact .ended hn hr .none
      | cons next more =>
          rw [join_cons_cons, List.append_assoc, List.cons_append]
          exact .ended hn hr (hmore (List.cons_ne_nil next more))

end Stencil.Text
