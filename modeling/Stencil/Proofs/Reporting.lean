import Mathlib.Logic.Function.Basic
import Stencil.Failure

/-!
# What the runner reads in the line of a failure

The message of a command is written by three replacements over the whole text, one after the other, and read by
three more that put the characters back. None of them may make a match for another: percent signs are replaced first
and put back last, so every percent sign between is the start of a word, and words do not overlap.

That is the invariant here (`Worded`): each character of the message is written as itself, or as a percent sign and
two characters that are none. Putting one character back keeps it, so the three replacements can be followed one
by one.

Main statements: `unescape_escape` and `lineOf_inActions`.
-/

namespace Stencil

namespace Text.Line

/-! ## Replacing characters -/

/-- Replaces every occurrence of a character by a word. -/
def replaced (old : Char) (word cs : List Char) : List Char :=
  cs.flatMap fun c => if c = old then word else [c]

/-- **Escaping is three replacements**, first that of the percent sign, which stands in the words of the others. -/
theorem escape_eq_replaced (cs : List Char) :
    escape cs = replaced '\n' ['%', '0', 'A']
      (replaced '\r' ['%', '0', 'D'] (replaced '%' ['%', '2', '5'] cs)) := by
  unfold replaced escape
  rw [List.flatMap_assoc, List.flatMap_assoc]
  congr 1
  funext c
  unfold escapeChar
  by_cases hp : c = '%'
  · subst hp; rfl
  by_cases hr : c = '\r'
  · subst hr; rfl
  by_cases hn : c = '\n'
  · subst hn; rfl
  simp [hp, hr, hn]

/-! ## Putting characters back -/

variable {f : Char → List Char} {a b new : Char}

/-- Whether every character is written as itself, or as a percent sign and two other characters. -/
def Worded (f : Char → List Char) : Prop :=
  ∀ c, (f c = [c] ∧ c ≠ '%') ∨ ∃ x y, f c = ['%', x, y] ∧ x ≠ '%' ∧ y ≠ '%'

/-- How characters are written after the words of one kind have been replaced by a character. -/
def putBack (a b new : Char) (f : Char → List Char) (c : Char) : List Char :=
  if f c = ['%', a, b] then [new] else f c

theorem unescapeOne_cons_of_ne {c : Char} (h : c ≠ '%') (cs : List Char) :
    unescapeOne a b new (c :: cs) = c :: unescapeOne a b new cs := by
  rw [unescapeOne.eq_def]
  split <;> simp_all

theorem unescapeOne_word {x y : Char} (hx : x ≠ '%') (hy : y ≠ '%') (cs : List Char) :
    unescapeOne a b new (['%', x, y] ++ cs)
      = (if ['%', x, y] = ['%', a, b] then [new] else ['%', x, y]) ++ unescapeOne a b new cs := by
  rw [List.cons_append, List.cons_append, List.singleton_append, unescapeOne]
  by_cases h : x = a ∧ y = b
  · simp [h]
  · rw [if_neg h, unescapeOne_cons_of_ne hx, unescapeOne_cons_of_ne hy, if_neg (by simpa using h)]
    rfl

/-- **A replacement replaces whole words**: it puts back the characters that are written as its word, and nothing
else. -/
theorem unescapeOne_flatMap (hf : Worded f) (cs : List Char) :
    unescapeOne a b new (cs.flatMap f) = cs.flatMap (putBack a b new f) := by
  induction cs with
  | nil => rfl
  | cons c cs ih =>
      rw [List.flatMap_cons, List.flatMap_cons, ← ih, putBack]
      rcases hf c with ⟨hc, hne⟩ | ⟨x, y, hc, hx, hy⟩
      · rw [hc, if_neg (by simp), List.singleton_append, unescapeOne_cons_of_ne hne]
        rfl
      · rw [hc, unescapeOne_word hx hy]

/-- Putting a character back that no word starts with keeps the writing worded. -/
theorem Worded.putBack (hf : Worded f) (hnew : new ≠ '%') (h : ∀ c, f c = ['%', a, b] → c = new) :
    Worded (putBack a b new f) := by
  intro c
  unfold Line.putBack
  split
  · rename_i hc
    obtain rfl := h c hc
    exact .inl ⟨rfl, hnew⟩
  · exact hf c

theorem worded_escapeChar : Worded escapeChar := by
  intro c
  unfold escapeChar
  split
  · exact .inr ⟨'2', '5', rfl, by decide⟩
  · rename_i hc
    repeat' split
    · exact .inr ⟨'0', 'D', rfl, by decide⟩
    · exact .inr ⟨'0', 'A', rfl, by decide⟩
    · exact .inl ⟨rfl, hc⟩

/-- No two characters are written alike. -/
theorem escapeChar_injective : Function.Injective escapeChar := by
  intro c d h
  have hread (x : Char) : decode (escapeChar x) = [x] := by
    rw [← List.append_nil (escapeChar x)]
    exact decode_escape [x]
  have hlist : [c] = [d] := by rw [← hread c, h, hread d]
  exact List.singleton_inj.mp hlist

/-- **The runner's three replacements undo escaping.** -/
theorem unescape_escape (cs : List Char) : unescape (escape cs) = cs := by
  have hreturn : Worded (putBack '0' 'D' '\r' escapeChar) :=
    worded_escapeChar.putBack (by decide) fun _ hc => escapeChar_injective (hc.trans rfl)
  have hnewline : Worded (putBack '0' 'A' '\n' (putBack '0' 'D' '\r' escapeChar)) := by
    refine hreturn.putBack (by decide) fun c hc => ?_
    unfold putBack at hc
    split at hc
    · simp at hc
    · exact escapeChar_injective (hc.trans rfl)
  have hall : putBack '2' '5' '%' (putBack '0' 'A' '\n' (putBack '0' 'D' '\r' escapeChar)) = ([·]) := by
    funext c
    unfold putBack escapeChar
    by_cases hp : c = '%'
    · subst hp; rfl
    by_cases hr : c = '\r'
    · subst hr; rfl
    by_cases hn : c = '\n'
    · subst hn; rfl
    simp [hp, hr, hn]
  rw [unescape, escape, unescapeOne_flatMap worded_escapeChar, unescapeOne_flatMap hreturn,
    unescapeOne_flatMap hnewline, hall]
  simp

end Text.Line

namespace Failure

open Text.Line (replaced unescape)

/-- **In a step of a workflow a failure is told on one line, and nothing of its message is lost.** The line is the
command and the message with its percent signs, carriage returns and newlines replaced in this order. What follows
the command has no line end, and the runner reads the message in it as it was, so no two messages have one line. -/
theorem lineOf_inActions :
    (∀ message : String, ∃ text : String, lineOf message true = "::error::" ++ text
        ∧ text.toList = replaced '\n' ['%', '0', 'A']
            (replaced '\r' ['%', '0', 'D'] (replaced '%' ['%', '2', '5'] message.toList))
        ∧ '\r' ∉ text.toList ∧ '\n' ∉ text.toList
        ∧ unescape text.toList = message.toList)
      ∧ Function.Injective (lineOf · true) := by
  have hread (message : String) : unescape (Text.Line.escaped message).toList = message.toList := by
    rw [Text.Line.escaped, String.toList_ofList, Text.Line.unescape_escape]
  refine ⟨fun message => ⟨Text.Line.escaped message, rfl, ?_, ?_, ?_, hread message⟩, fun s t h => ?_⟩
  · rw [Text.Line.escaped, String.toList_ofList, Text.Line.escape_eq_replaced]
  · rw [Text.Line.escaped, String.toList_ofList]
    exact Text.Line.return_not_mem_escape _
  · rw [Text.Line.escaped, String.toList_ofList]
    exact Text.Line.newline_not_mem_escape _
  · have htext : Text.Line.escaped s = Text.Line.escaped t := by simpa [lineOf] using h
    have hlist : s.toList = t.toList := by rw [← hread s, htext, hread t]
    exact String.toList_injective hlist

example : lineOf "100%\r\n%0A" true = "::error::100%25%0D%0A%250A" := by decide

end Failure

end Stencil
