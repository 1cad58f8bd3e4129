import Stencil.Proofs.KeyValue.Composition

/-!
# Where a text of assignments is refused

The fault of a refused text is that of its first bad statement, and its number is the line on which that
statement starts. The lines before it make a document by themselves, and nothing behind it can mend it, unless
it is a quote that is still open.

Cutting a text at a line and putting the lines together again may take the carriage return from the end of a
line, and an empty line at the end. So lines are compared up to blanks behind each of them and blank lines
behind all (`Behind`); these have no part in whether a text is refused, and where.

Main statement: `read_of_malformed`.
-/

namespace Stencil.KeyValue

open Stencil.Text

/-! ## Blanks behind lines -/

/-- The lines of a text with blanks behind each, and with blank lines behind all of them. -/
inductive Behind : List (List Char) → List (List Char) → Prop
  | nil {blanks : List (List Char)} : (∀ l ∈ blanks, AllBlank l) → Behind blanks []
  | cons {l t : List Char} {us ls : List (List Char)} :
      AllBlank t → Behind us ls → Behind ((l ++ t) :: us) (l :: ls)

/-- What is found of a quoted value with blanks behind its lines: it ends on the same line, and blanks may stand
behind what follows the closing quote. -/
structure FoundBehind (us ls : List (List Char)) (u f : Found) : Prop where
  used : u.used = f.used
  trailing : ∃ tail, AllBlank tail ∧ u.trailing = f.trailing ++ tail
  behind : Behind (us.drop f.used) (ls.drop f.used)

section Behind

variable {us ls blanks : List (List Char)} {tail : List Char}

theorem Behind.refl (ls : List (List Char)) : Behind ls ls := by
  induction ls with
  | nil => exact .nil (by simp)
  | cons line ls ih => simpa using Behind.cons (l := line) allBlank_nil ih

theorem Behind.append (h : Behind us ls) (front : List (List Char)) :
    Behind (front ++ us) (front ++ ls) := by
  induction front with
  | nil => exact h
  | cons line front ih => simpa using Behind.cons (l := line) allBlank_nil ih

/-- Blanks close no quote and open none. -/
theorem find?_of_behind (quote : Quote) (ht : AllBlank tail) (h : Behind us ls) (first : List Char) :
    Option.Rel (FoundBehind us ls) (find? quote (first ++ tail) us) (find? quote first ls) := by
  induction h generalizing first tail with
  | nil hb =>
      rw [find?_last quote ht hb, find?.eq_def]
      cases closing? quote first with
      | none => exact .none
      | some found => exact .some ⟨rfl, ⟨tail, ht, rfl⟩, .nil hb⟩
  | @cons line tail' us ls ht' h ih =>
      rw [find?, find?, closing?_append quote ht]
      cases closing? quote first with
      | some found => exact .some ⟨rfl, ⟨tail, ht, rfl⟩, .cons ht' h⟩
      | none =>
          have hr := ih ht' line
          simp only [Option.map_none]
          generalize find? quote (line ++ tail') us = u at hr ⊢
          generalize find? quote line ls = f at hr ⊢
          cases hr with
          | none => exact .none
          | some hf => exact .some ⟨congrArg (· + 1) hf.used, hf.trailing, hf.behind⟩

end Behind

/-- The fault of what was refused. -/
def fault? {α : Type} : Except LineFault α → Option LineFault
  | .error f => some f
  | .ok _ => none

@[simp] theorem fault?_map {α β : Type} (f : α → β) (e : Except LineFault α) :
    fault? (e.map f) = fault? e := by cases e <;> rfl

/-- **Blanks behind lines have no part in whether the lines are refused**, and where. -/
theorem fault?_entriesFrom_of_behind {us ls : List (List Char)} (h : Behind us ls) (number : Nat) :
    fault? (entriesFrom number us) = fault? (entriesFrom number ls) := by
  match ls, h with
  | [], .nil hb => rw [entriesFrom_of_allBlank hb, entriesFrom]
  | line :: ls, @Behind.cons _ tail us _ ht h =>
      rw [entriesFrom, entriesFrom, statement_append ht]
      cases statement line with
      | error fault => rfl
      | ok said =>
          cases said with
          | nothing => exact fault?_entriesFrom_of_behind h (number + 1)
          | plain key value =>
              simp only [Except.map, Statement.followed]
              exact (fault?_map _ _).trans
                ((fault?_entriesFrom_of_behind h (number + 1)).trans (fault?_map _ _).symm)
          | quoted key quote first =>
              have hr := find?_of_behind quote ht h first
              simp only [Except.map, Statement.followed]
              generalize find? quote (first ++ tail) us = u at hr ⊢
              generalize find? quote first ls = f at hr ⊢
              cases hr with
              | none => rfl
              | @some u f hf =>
                  -- The value ends on the same line in both, and what is left is behind as before.
                  obtain ⟨hused, ⟨trail, htrail, he⟩, hbehind⟩ := hf
                  simp only [he, hused, endsValue_append htrail, trim_append_allBlank htrail]
                  split
                  · exact (fault?_map _ _).trans
                      ((fault?_entriesFrom_of_behind hbehind _).trans (fault?_map _ _).symm)
                  · rfl
termination_by ls.length
decreasing_by all_goals simp only [List.length_cons, List.length_drop]; omega

/-! ## Faults -/

section Faults

variable {ls : List (List Char)} {n : Nat} {fault : Fault}

theorem pos_of_broken (h : Broken ls fault) : 0 < ls.length := by
  cases h <;> exact Nat.zero_lt_succ _

/-- The line of a fault is one of the text. -/
theorem lt_length_of_refused (h : Refused ls n fault) : n < ls.length := by
  induction h with
  | here hb => exact pos_of_broken hb
  | later _ _ ih =>
      rw [List.length_append]
      omega

/-- **The lines before a fault are a document.** -/
theorem exists_document_take (h : Refused ls n fault) : ∃ es, Document (ls.take n) es := by
  induction h with
  | here => exact ⟨[], .nil⟩
  | later hc _ ih =>
      obtain ⟨es, hd⟩ := ih
      rw [List.take_length_add_append]
      exact ⟨_, .cons hc hd⟩

/-- A fault that is no open quote is one whatever lines follow. -/
theorem Broken.append (h : Broken ls fault) (hf : fault ≠ .unterminated) (more : List (List Char)) :
    Broken (ls ++ more) fault := by
  cases h with
  | noAssignment hb hc hs hm => exact .noAssignment hb hc hs hm
  | invalidKey hc ha hk => exact .invalidKey hc ha hk
  | unterminated => exact absurd rfl hf
  | textAfterQuote ha hk ho he ht htrim =>
      rw [List.cons_append, List.append_assoc]
      exact .textAfterQuote ha hk ho he ht htrim

theorem Refused.append (h : Refused ls n fault) (hf : fault ≠ .unterminated)
    (more : List (List Char)) : Refused (ls ++ more) n fault := by
  induction h with
  | here hb => exact .here (hb.append hf more)
  | later hc _ ih =>
      rw [List.append_assoc]
      exact .later hc (ih hf)

end Faults

/-! ## Texts -/

/-- Lines that are put together again lose blanks at most. -/
theorem behind_lines_join {ls : List (List Char)} (hn : ∀ l ∈ ls, '\n' ∉ l) :
    Behind ls (lines (join ['\n'] ls)) := by
  match ls with
  | [] => exact .refl []
  | [line] =>
      by_cases hne : line = []
      · subst hne
        exact .nil (by simp)
      · show Behind [line] (lines line)
        rw [lines_of_not_mem hne (hn line List.mem_cons_self)]
        exact .refl [line]
  | line :: next :: more =>
      obtain ⟨hline, hmore⟩ := List.forall_mem_cons.mp hn
      obtain ⟨tail, ht, he⟩ := exists_dropReturn_append line
      rw [join_cons_cons, lines_append_newline hline]
      have hb := Behind.cons (l := dropReturn line) ht (behind_lines_join hmore)
      rwa [← he] at hb

/-- Ending the last line of a text leaves its fault as it is. -/
theorem fault?_entriesFrom_newline (a : List Char) (number : Nat) :
    fault? (entriesFrom number (lines (a ++ ['\n']))) = fault? (entriesFrom number (lines a)) := by
  rcases lines_newline a with h | ⟨ls, last, ha, h⟩
  · have hblank : Behind [[]] [] := .nil (by simp)
    have hb := hblank.append (lines a)
    rw [List.append_nil] at hb
    rw [h]
    exact fault?_entriesFrom_of_behind hb number
  · obtain ⟨tail, ht, he⟩ := exists_dropReturn_append last
    have hb := (Behind.cons (l := dropReturn last) ht (.refl [])).append ls
    rw [← he] at hb
    rw [h, ha]
    exact (fault?_entriesFrom_of_behind hb number).symm

theorem eq_error_of_fault? {α : Type} {e : Except LineFault α} {f : LineFault}
    (h : fault? e = some f) : e = .error f := by
  cases e with
  | error g => exact congrArg _ (Option.some.inj h)
  | ok a => cases h

/-- **A fault that is no open quote stays** when a newline and more text follow. -/
theorem entries_append_of_error {a : List Char} {f : LineFault} (h : entries a = .error f)
    (hf : f.fault ≠ .unterminated) (more : List Char) : entries (a ++ '\n' :: more) = .error f := by
  have hn : ∀ l ∈ lines (a ++ ['\n']), '\n' ∉ l := fun _ => newline_not_mem_of_mem_lines
  have hended : entriesFrom 1 (lines (a ++ ['\n'])) = .error f := by
    refine eq_error_of_fault? ?_
    rw [fault?_entriesFrom_newline, ← entries.eq_def a, h]
    rfl
  rcases document_or_refused _ hn with ⟨es, hd⟩ | ⟨n, fault, hr⟩
  · rw [entriesFrom_document hd hn] at hended
    contradiction
  · rw [entriesFrom_refused hr hn] at hended
    obtain rfl := Except.error.inj hended
    have hall : ∀ l ∈ lines (a ++ '\n' :: more), '\n' ∉ l := fun _ => newline_not_mem_of_mem_lines
    rw [lines_append] at hall
    rw [entries, lines_append, entriesFrom_refused (hr.append hf (lines more)) hall]

theorem entries_of_malformed {text : String} {cause : Malformation}
    (h : Format.read .keyValue text = .error (.malformed cause)) :
    isBlankText text = false ∧ ∃ f, cause = .line f ∧ entries text.toList = .error f := by
  unfold Format.read at h
  split at h
  · cases h
  · rename_i hb
    refine ⟨by simpa using hb, ?_⟩
    simp only [Format.members, Format.keyValueMembers] at h
    cases he : entries text.toList with
    | error f =>
        simp only [he] at h
        cases h
        exact ⟨f, rfl, rfl⟩
    | ok es =>
        simp only [he] at h
        split at h <;> cases h

/-- **A text that is refused is refused at its first bad statement.** The fault tells the line on which that
statement starts; the lines before it are not refused, and unless the fault is an open quote, nothing that
follows the text makes a difference to it. -/
theorem read_of_malformed {text : String} {cause : Malformation}
    (h : Format.read .keyValue text = .error (.malformed cause)) :
    ∃ n fault, cause = .line ⟨n, fault⟩
      ∧ cause.message = "line " ++ toString n ++ ": " ++ fault.message
      ∧ 1 ≤ n ∧ n ≤ (lines text.toList).length
      ∧ (∀ other, Format.read .keyValue
            (String.ofList (join ['\n'] ((lines text.toList).take (n - 1)))) ≠ .error (.malformed other))
      ∧ (fault ≠ .unterminated → ∀ more,
          Format.read .keyValue (text ++ "\n" ++ more) = .error (.malformed cause)) := by
  obtain ⟨hb, f, rfl, he⟩ := entries_of_malformed h
  have hlines := lines_eq_iff.mp (rfl : lines text.toList = _)
  have hn : ∀ l ∈ lines text.toList, '\n' ∉ l := fun _ => newline_not_mem_of_mem_lines
  rcases document_or_refused _ hn with ⟨es, hd⟩ | ⟨n, fault, hr⟩
  · rw [entries_of_document hlines hd] at he
    contradiction
  · obtain rfl := Except.error.inj ((entries_of_refused hlines hr).symm.trans he)
    refine ⟨n + 1, fault, rfl, rfl, Nat.succ_pos n, lt_length_of_refused hr, fun other ho => ?_, fun hf more => ?_⟩
    · -- The lines in front are a document. Put together again they lose blanks at most, which makes no fault.
      obtain ⟨-, f, -, hf⟩ := entries_of_malformed ho
      obtain ⟨es, hd⟩ := exists_document_take hr
      have htake : ∀ l ∈ (lines text.toList).take n, '\n' ∉ l := fun l hl => hn l (List.mem_of_mem_take hl)
      have hfault := fault?_entriesFrom_of_behind (behind_lines_join htake) 1
      rw [entriesFrom_document hd htake] at hfault
      rw [String.toList_ofList, entries, Nat.add_sub_cancel] at hf
      rw [hf] at hfault
      cases hfault
    · -- Only a value that is not closed could be changed by what follows.
      have hall : entries (text ++ "\n" ++ more).toList = .error ⟨n + 1, fault⟩ := by
        have htext : (text ++ "\n" ++ more).toList = text.toList ++ '\n' :: more.toList := by simp
        rw [htext]
        exact entries_append_of_error he hf more.toList
      have hblank : isBlankText (text ++ "\n" ++ more) = false := by
        rw [isBlankText, String.toList_append, String.toList_append, List.all_append, List.all_append,
          ← isBlankText, hb]
        rfl
      simp only [Format.read, hblank, Format.members, Format.keyValueMembers, hall]
      rfl

/-- A text with text behind a closing quote, on the last line of a value of two. -/
def lateFault : String := "# 1\nA=\"x\\\r\ny\" # 3\r\n\nB='5\n6' tail\r"

theorem read_of_malformed_lateFault :
    Format.read .keyValue lateFault = .error (.malformed (.line ⟨5, .textAfterQuote "tail"⟩))
      ∧ (∀ other, Format.read .keyValue "# 1\nA=\"x\\\ny\" # 3\n" ≠ .error (.malformed other))
      ∧ ∀ more, Format.read .keyValue (lateFault ++ "\n" ++ more)
          = .error (.malformed (.line ⟨5, .textAfterQuote "tail"⟩)) := by
  have he : entries lateFault.toList = .error ⟨5, .textAfterQuote "tail"⟩ := by decide +kernel
  have h : Format.read .keyValue lateFault = .error (.malformed (.line ⟨5, .textAfterQuote "tail"⟩)) := by
    simp only [Format.read, Format.members, Format.keyValueMembers, he]
    rfl
  obtain ⟨n, fault, hc, -, -, -, hbefore, hafter⟩ := read_of_malformed h
  cases hc
  have hlines : String.ofList (join ['\n'] ((lines lateFault.toList).take 4))
      = "# 1\nA=\"x\\\ny\" # 3\n" := by decide +kernel
  exact ⟨h, hlines ▸ hbefore, hafter (by rintro ⟨⟩)⟩

end Stencil.KeyValue
