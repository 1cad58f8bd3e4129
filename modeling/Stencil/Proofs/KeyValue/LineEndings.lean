import Stencil.Proofs.KeyValue.Trimming

/-!
# How the lines of assignments are ended

A carriage return in front of a newline belongs to the ending of a line, so a text has the same lines whether its
lines are ended by newlines or by carriage returns and newlines. Reading asks a text for its lines and for nothing
else, but whether it is blank: values, also those that go on over several lines, and faults are the same.

Main statements: `lines_returned` and `keyValue_read_returned`.
-/

namespace Stencil

namespace Text

/-- A text with a carriage return put in front of every newline. -/
def returned (cs : List Char) : List Char := cs.flatMap fun c => if c = '\n' then ['\r', '\n'] else [c]

theorem returned_append (a b : List Char) : returned (a ++ b) = returned a ++ returned b :=
  List.flatMap_append

theorem returned_of_not_mem {cs : List Char} (h : '\n' ∉ cs) : returned cs = cs := by
  induction cs with
  | nil => rfl
  | cons c cs ih =>
      have hc : c ≠ '\n' := fun he => h (he ▸ List.mem_cons_self)
      have hcs : returned cs = cs := ih fun hm => h (List.mem_cons_of_mem c hm)
      calc returned (c :: cs) = [c] ++ returned cs := by simp [returned, hc]
        _ = c :: cs := by rw [hcs, List.singleton_append]

theorem returned_append_newline {line : List Char} (h : '\n' ∉ line) (rest : List Char) :
    returned (line ++ '\n' :: rest) = line ++ ['\r'] ++ '\n' :: returned rest := by
  rw [returned_append, returned_of_not_mem h, List.append_assoc]
  rfl

/-- **Lines are the same however they are ended.** -/
theorem lines_returned {cs : List Char} (h : '\r' ∉ cs) : lines (returned cs) = lines cs := by
  induction cs using pieces_induction '\n' with
  | last cs hn => rw [returned_of_not_mem hn]
  | more line rest hn ih =>
      rw [List.mem_append, not_or] at h
      have hline : '\n' ∉ line ++ ['\r'] := by simp [hn]
      have hreturn : line.getLast? ≠ some '\r' := fun he => h.1 (List.mem_of_getLast? he)
      rw [returned_append_newline hn, lines_append_newline hline, lines_append_newline hn,
        dropReturn_append_return, dropReturn_of_ne hreturn, ih fun hm => h.2 (List.mem_cons_of_mem _ hm)]

theorem all_isBlank_returned (cs : List Char) : (returned cs).all isBlank = cs.all isBlank := by
  induction cs with
  | nil => rfl
  | cons c cs ih =>
      have happend : returned (c :: cs) = returned [c] ++ returned cs := returned_append [c] cs
      have hc : (returned [c]).all isBlank = isBlank c := by
        by_cases he : c = '\n'
        · subst he
          rfl
        · simp [returned, he]
      rw [happend, List.all_append, hc, ih, List.all_cons]

end Text

namespace KeyValue

open Text

/-- What a text says as assignments depends on its lines, and on whether it is blank. -/
theorem keyValue_read_congr {a b : String} (hl : lines a.toList = lines b.toList)
    (hb : isBlankText a = isBlankText b) : Format.read .keyValue a = Format.read .keyValue b := by
  have hentries : entries a.toList = entries b.toList := by rw [entries, hl, entries]
  have hmembers : Format.members .keyValue a = Format.members .keyValue b := by
    simp only [Format.members, Format.keyValueMembers, hentries]
  rw [Format.read, Format.read, hb, hmembers]

/-- **Assignments do not depend on how lines are ended, nor on white space at the ends of the text.** With a
carriage return in front of every newline a text is read as the same variables or refused for the same reason;
without the white space at its ends it is read as the same variables or refused too. -/
theorem keyValue_read_returned (text : String) :
    ('\r' ∉ text.toList →
        Format.read .keyValue (String.ofList (returned text.toList)) = Format.read .keyValue text)
      ∧ ∀ vars, Format.read .keyValue (trimmed text) = .ok vars ↔ Format.read .keyValue text = .ok vars := by
  refine ⟨fun h => keyValue_read_congr ?_ ?_, fun vars => ?_⟩
  · rw [String.toList_ofList, lines_returned h]
  · rw [isBlankText, isBlankText, String.toList_ofList, all_isBlank_returned]
  · have htrim := keyValue_read_trimmed text
    cases ht : Format.read .keyValue (trimmed text) <;> cases hr : Format.read .keyValue text <;>
      simp_all [Except.toOption]

/-- Assignments between blank lines; a value goes on behind a backslash at the end of its first line, and another
one is only a line ending. -/
def spaced : String := " \n\tA=\"x\\\n# y\" # z\n\nexport B='\n'\nC= 1\n \n"

theorem keyValue_read_returned_spaced :
    '\r' ∉ spaced.toList
      ∧ Format.read .keyValue " \r\n\tA=\"x\\\r\n# y\" # z\r\n\r\nexport B='\r\n'\r\nC= 1\r\n \r\n"
          = Format.read .keyValue spaced
      ∧ ∃ vars, Format.read .keyValue spaced = .ok vars
          ∧ Format.read .keyValue "A=\"x\\\n# y\" # z\n\nexport B='\n'\nC= 1" = .ok vars
          ∧ vars.members = [("A", .string "x\\\n# y"), ("B", .string "\n"), ("C", .string "1")] := by
  have hno : '\r' ∉ spaced.toList := by decide
  have hreturned : String.ofList (returned spaced.toList)
      = " \r\n\tA=\"x\\\r\n# y\" # z\r\n\r\nexport B='\r\n'\r\nC= 1\r\n \r\n" := by decide
  have htrimmed : trimmed spaced = "A=\"x\\\n# y\" # z\n\nexport B='\n'\nC= 1" := by decide
  have hentries : entries spaced.toList = .ok [("A", "x\\\n# y"), ("B", "\n"), ("C", "1")] := by decide +kernel
  obtain ⟨hlines, htrim⟩ := keyValue_read_returned spaced
  have hlines := hlines hno
  rw [hreturned] at hlines
  rw [htrimmed] at htrim
  let vars : Variables := ⟨[("A", .string "x\\\n# y"), ("B", .string "\n"), ("C", .string "1")], by simp⟩
  have hread : Format.read .keyValue spaced = .ok vars := by
    refine Format.read_of_members ?_ ?_
    · exact fun hb => absurd (hb 'A' (by decide)) (by decide)
    · rw [Format.members, Format.keyValueMembers, hentries]
      rfl
  exact ⟨hno, hlines, vars, hread, (htrim vars).mpr hread, rfl⟩

end KeyValue

end Stencil
