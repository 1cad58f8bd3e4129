import Stencil.Proofs.Text.Lines
import Stencil.Publication.Entry

/-!
# Entries that are added

A text of entries that ends with a newline is read to its end, so whatever comes behind is read by itself
(`ofText?_append`). A written entry is its header, the lines of its value and its delimiter. No line of the
value is the delimiter, which does not occur in it, and so the entry is read back whole.

Main statements: `ofText?_append` and `ofText?_written`.
-/

namespace Stencil.StepOutput

open Stencil.Text

/-- Whether every line of a text is ended by a newline. -/
def Ended (cs : List Char) : Prop := cs = [] ∨ cs.getLast? = some '\n'

theorem ended_append {a b : List Char} (ha : Ended a) (hb : Ended b) : Ended (a ++ b) := by
  rcases hb with rfl | hb
  · rwa [List.append_nil]
  · exact .inr (by rw [List.getLast?_append, hb]; rfl)

/-! ## Lines -/

theorem linesOf_append_newline (a b : List Char) :
    linesOf (a ++ '\n' :: b) = split '\n' a ++ linesOf b := by
  have hne := split_ne_nil '\n' b
  have hlast : (split '\n' a ++ split '\n' b).getLast? = (split '\n' b).getLast? := by
    rw [List.getLast?_append, List.getLast?_eq_some_getLast hne]
    rfl
  simp only [linesOf, split_append, hlast]
  split
  · rw [List.dropLast_append_of_ne_nil hne]
  · rfl

theorem linesOf_append {a : List Char} (ha : Ended a) (b : List Char) :
    linesOf (a ++ b) = linesOf a ++ linesOf b := by
  rcases ha with rfl | ha
  · rfl
  · obtain ⟨a, rfl⟩ := List.getLast?_eq_some_iff.mp ha
    have hnil : linesOf [] = [] := rfl
    rw [List.append_assoc, List.singleton_append, linesOf_append_newline, linesOf_append_newline,
      hnil, List.append_nil]

/-! ## Reading on -/

/-- Lines that are read to an end are followed by nothing that they have opened. -/
theorem ofLines?_append {e : Option Open} {a : List (List Char)}
    {es : List (List Char × List Char)} (h : ofLines? e a = some es) (b : List (List Char)) :
    ofLines? e (a ++ b) = (ofLines? none b).map (es ++ ·) := by
  fun_induction ofLines? e a generalizing es with
  | case1 =>
      obtain rfl := Option.some.inj h
      simp
  | case2 => contradiction
  | case3 line rest name delimiter hc ih =>
      rw [List.cons_append, ofLines?, hc]
      exact ih h
  | case4 line rest hn entry hc ih =>
      obtain ⟨fs, hf, rfl⟩ := Option.map_eq_some_iff.mp h
      simp only [List.cons_append, ofLines?, hn, hc, ih hf, Option.map_map]
      rfl
  | case5 => contradiction
  | case6 e rest ih =>
      obtain ⟨fs, hf, rfl⟩ := Option.map_eq_some_iff.mp h
      simp only [List.cons_append, ofLines?, if_true, ih hf, Option.map_map]
      rfl
  | case7 e line rest hl ih =>
      rw [List.cons_append, ofLines?, if_neg hl]
      exact ih h

theorem ofText?_append {a : List Char} (ha : Ended a) {es : List (List Char × List Char)}
    (h : ofText? a = some es) (b : List Char) :
    ofText? (a ++ b) = (ofText? b).map (es ++ ·) := by
  rw [ofText?, linesOf_append ha]
  exact ofLines?_append h (linesOf b)

/-- An open entry goes on to the first line that is its delimiter. -/
theorem ofLines?_open {e : Open} {value : List (List Char)} (h : e.delimiter ∉ value)
    (rest : List (List Char)) :
    ofLines? (some e) (value ++ e.delimiter :: rest)
      = (ofLines? none rest).map ((e.name, join ['\n'] (e.lines ++ value)) :: ·) := by
  induction value generalizing e with
  | nil => simp [ofLines?]
  | cons line value ih =>
      have hline : line ≠ e.delimiter := fun he => h (he ▸ List.mem_cons_self)
      have hvalue : e.delimiter ∉ value := fun hm => h (List.mem_cons_of_mem _ hm)
      rw [List.cons_append, ofLines?, if_neg hline]
      rw [ih (e := { e with lines := e.lines ++ [line] }) hvalue]
      simp

/-! ## One entry -/

/-- A header is cut behind the name, as no sign less-than stands in it. -/
theorem cutAt_header {name : List Char} (hn : '<' ∉ name) (delimiter : List Char) :
    cutAt ['<', '<'] (name ++ '<' :: '<' :: delimiter) = some (name, delimiter) := by
  induction name with
  | nil => rfl
  | cons c name ih =>
      have hc : c ≠ '<' := fun hc => hn (hc ▸ List.mem_cons_self)
      rw [List.cons_append, cutAt, ih fun hm => hn (List.mem_cons_of_mem _ hm)]
      simp [hc.symm]

theorem toList_written (delimiter name value : String) :
    (written delimiter name value).toList
      = (name.toList ++ '<' :: '<' :: delimiter.toList)
        ++ '\n' :: (value.toList ++ '\n' :: (delimiter.toList ++ '\n' :: [])) := by
  simp [written]

/-- **A written entry is read back**, whatever its value holds. -/
theorem ofText?_written {delimiter name value : String} (hd : '\n' ∉ delimiter.toList)
    (hn : '\n' ∉ name.toList ∧ '<' ∉ name.toList) (hv : ¬ delimiter.toList <:+: value.toList) :
    ofText? (written delimiter name value).toList = some [(name.toList, value.toList)] := by
  have hheader : '\n' ∉ name.toList ++ '<' :: '<' :: delimiter.toList := by simp [hn.1, hd]
  have hvalue : delimiter.toList ∉ split '\n' value.toList := fun hm => hv (infix_of_mem_split hm)
  rw [ofText?, toList_written, linesOf_append_newline, linesOf_append_newline,
    linesOf_append_newline, split_of_not_mem hheader, split_of_not_mem hd, List.singleton_append,
    ofLines?, cutAt_header hn.2]
  have hopen := ofLines?_open (e := ⟨name.toList, delimiter.toList, []⟩) hvalue []
  rw [List.nil_append, join_split] at hopen
  exact hopen

theorem ended_written (delimiter name value : String) :
    Ended (written delimiter name value).toList := by
  right
  simp [written, List.getLast?_cons]

end Stencil.StepOutput
