import Stencil.Proofs.KeyValue.Trimming

/-!
# One text of assignments behind another

A statement ends where its lines end, and nothing of it is remembered behind them. So a text that is read can
be put in front of another: its assignments come first, and those of the other text follow as they are, as does
its first fault, with the lines counted from the start of the whole. The newline between the two ends the last
line of the first text. A carriage return there belongs to the line ending then; before, it was a blank behind
the line.

Main statement: `keyValueMembers_append`.
-/

namespace Stencil.KeyValue

open Stencil.Text

/-! ## Lines -/

/-- A fault as many lines further down. -/
def LineFault.below (f : LineFault) (lines : Nat) : LineFault := ⟨f.line + lines, f.fault⟩

section Lines

variable {ls more : List (List Char)} {es : List Entry} {number : Nat}

/-- Lines are read alike wherever they stand, but for the numbers of their faults. -/
theorem entriesFrom_add (hn : ∀ l ∈ ls, '\n' ∉ l) (number k : Nat) :
    entriesFrom (number + k) ls = (entriesFrom number ls).mapError (·.below k) := by
  rcases document_or_refused ls hn with ⟨es, hd⟩ | ⟨n, fault, hr⟩
  · rw [entriesFrom_document hd hn, entriesFrom_document hd hn]
    rfl
  · rw [entriesFrom_refused hr hn, entriesFrom_refused hr hn, Nat.add_right_comm]
    rfl

/-- **Lines that are read can stand in front of others**, which are read behind them. -/
theorem entriesFrom_append (hn : ∀ l ∈ ls, '\n' ∉ l) (h : entriesFrom number ls = .ok es) :
    entriesFrom number (ls ++ more) = (entriesFrom (number + ls.length) more).map (es ++ ·) := by
  rcases document_or_refused ls hn with ⟨fs, hd⟩ | ⟨n, fault, hr⟩
  · obtain rfl := Except.ok.inj ((entriesFrom_document hd hn number).symm.trans h)
    clear h
    induction hd generalizing number with
    | nil => cases hm : entriesFrom number more <;> simp [hm, Except.map]
    | @cons taken rest e fs hc _ ih =>
        rw [List.append_assoc, entriesFrom_clause hc (newline_not_mem_left hn),
          ih (newline_not_mem_right hn), List.length_append, Nat.add_assoc]
        cases entriesFrom (number + (taken.length + rest.length)) more <;> simp [Except.map]
  · rw [entriesFrom_refused hr hn] at h
    contradiction

end Lines

/-! ## Texts -/

theorem exists_dropReturn_append (line : List Char) :
    ∃ tail, AllBlank tail ∧ line = dropReturn line ++ tail := by
  by_cases h : line.getLast? = some '\r'
  · obtain ⟨before, rfl⟩ := List.getLast?_eq_some_iff.mp h
    exact ⟨['\r'], List.all_eq_true.mp (by decide), by rw [dropReturn_append_return]⟩
  · exact ⟨[], allBlank_nil, by rw [dropReturn_of_ne h, List.append_nil]⟩

/-- Ending the last line of a text leaves its assignments as they are. -/
theorem toOption_entriesFrom_newline (a : List Char) (number : Nat) :
    (entriesFrom number (lines (a ++ ['\n']))).toOption = (entriesFrom number (lines a)).toOption := by
  rcases lines_newline a with h | ⟨ls, last, ha, h⟩
  · have hblank : ∀ l ∈ [[]], AllBlank l := by simp
    rcases List.eq_nil_or_concat (lines a) with hnil | ⟨ls, last, he⟩
    · rw [h, hnil, List.nil_append, entriesFrom_of_allBlank hblank, entriesFrom]
    · have hb := entriesFrom_behind allBlank_nil hblank ls last number number
      rw [h, he, List.concat_eq_append, ← hb]
      simp
  · have hblank : ∀ l ∈ ([] : List (List Char)), AllBlank l := by simp
    obtain ⟨tail, ht, he⟩ := exists_dropReturn_append last
    have hb := entriesFrom_behind ht hblank ls (dropReturn last) number number
    rw [h, ha, ← hb, ← he]

/-- **A text that is read can stand in front of another.** -/
theorem entries_append {a : List Char} {es : List Entry} (h : entries a = .ok es) (b : List Char) :
    entries (a ++ '\n' :: b)
      = ((entries b).mapError (·.below (1 + a.count '\n'))).map (es ++ ·) := by
  have hended : entriesFrom 1 (lines (a ++ ['\n'])) = .ok es := by
    have ho := toOption_entriesFrom_newline a 1
    rw [← entries.eq_def a, h] at ho
    cases he : entriesFrom 1 (lines (a ++ ['\n'])) with
    | error f => simp [he, Except.toOption] at ho
    | ok fs => simpa [he, Except.toOption] using ho
  have hlines : ∀ l ∈ lines b, '\n' ∉ l := fun _ => newline_not_mem_of_mem_lines
  rw [entries, lines_append, entriesFrom_append (fun _ => newline_not_mem_of_mem_lines) hended,
    length_lines_newline, entriesFrom_add hlines 1, Nat.add_comm 1 (a.count '\n')]
  rfl

/-! ## Members -/

def Entry.member (e : Entry) : String × Json := (e.1, .string e.2)

theorem keyValueMembers_eq (text : String) :
    Format.keyValueMembers text
      = ((entries text.toList).map fun es => Members.ofEntries (es.map Entry.member)).mapError
          fun f => .malformed (.line f) := by
  unfold Format.keyValueMembers
  cases entries text.toList <;> rfl

/-- **A text of assignments that is read can be put in front of another.** If the other text is read, its
members are inserted after those of the first one: names that exist keep their places and take the new values.
If it is refused, so is the whole, for the same fault as many lines further down as the first text takes up. -/
theorem keyValueMembers_append {a : String} {first : Members Json}
    (ha : Format.keyValueMembers a = .ok first) (b : String) :
    (∀ second, Format.keyValueMembers b = .ok second →
        Format.keyValueMembers (a ++ "\n" ++ b) = .ok (Members.insertAll first second)
          ∧ Members.keys (Members.insertAll first second)
              = Members.keys first ++ (Members.keys second).filter (· ∉ Members.keys first)
          ∧ ∀ name, Members.get? (Members.insertAll first second) name
              = (Members.get? second name).or (Members.get? first name))
      ∧ ∀ rejection, Format.keyValueMembers b = .error rejection →
          ∃ f : LineFault, rejection = .malformed (.line f)
            ∧ Format.keyValueMembers (a ++ "\n" ++ b)
                = .error (.malformed (.line (f.below (1 + a.toList.count '\n'))))
            ∧ f.message = "line " ++ toString f.line ++ ": " ++ f.fault.message
            ∧ (f.below (1 + a.toList.count '\n')).message
                = "line " ++ toString (f.line + (1 + a.toList.count '\n')) ++ ": " ++ f.fault.message := by
  have htext : (a ++ "\n" ++ b).toList = a.toList ++ '\n' :: b.toList := by simp
  rw [keyValueMembers_eq] at ha
  cases he : entries a.toList with
  | error f => simp [he, Except.map, Except.mapError] at ha
  | ok es =>
      rw [he] at ha
      obtain rfl := Except.ok.inj ha
      rw [keyValueMembers_eq b, keyValueMembers_eq (a ++ "\n" ++ b), htext, entries_append he]
      cases entries b.toList with
      | error f =>
          refine ⟨fun second h => by simp [Except.map, Except.mapError] at h, fun rejection h => ?_⟩
          -- The lines of `a` are read first, so that the fault of `b` is reported below them.
          obtain rfl := Except.error.inj h
          exact ⟨f, rfl, rfl, rfl, rfl⟩
      | ok fs =>
          refine ⟨fun second h => ?_, fun rejection h => by simp [Except.map, Except.mapError] at h⟩
          obtain rfl := Except.ok.inj h
          have hnodup := Members.nodup_keys_ofEntries (fs.map Entry.member)
          refine ⟨?_, Members.keys_insertAll hnodup _, Members.get?_insertAll hnodup _⟩
          -- To add the assignments of `b` to the members of `a` is to read the assignments of both in one row.
          have hall : Members.insertAll (Members.ofEntries (es.map Entry.member)) (fs.map Entry.member)
              = Members.ofEntries ((es ++ fs).map Entry.member) := by
            rw [List.map_append]
            exact (Members.insertAll_append [] _ _).symm
          rw [Members.insertAll_ofEntries, hall]
          rfl

/-- A text whose last line holds the end of a quoted value and a carriage return. -/
def unended : String := "A=1\nB='x\ny'\r"

theorem keyValueMembers_append_unended :
    Format.keyValueMembers unended = .ok [("A", .string "1"), ("B", .string "x\ny")]
      ∧ Format.keyValueMembers (unended ++ "\n" ++ "C=\"#\" # 3\nA=\nA=2")
          = .ok [("A", .string "2"), ("B", .string "x\ny"), ("C", .string "#")]
      ∧ Format.keyValueMembers (unended ++ "\n" ++ "C=3\nD='\n")
          = .error (.malformed (.line ⟨5, .unterminated⟩)) := by
  have hunended : entries unended.toList = .ok [("A", "1"), ("B", "x\ny")] := by decide +kernel
  have hmore : entries "C=\"#\" # 3\nA=\nA=2".toList = .ok [("C", "#"), ("A", ""), ("A", "2")] := by decide +kernel
  have hopen : entries "C=3\nD='\n".toList = .error ⟨2, .unterminated⟩ := by decide +kernel
  have ha : Format.keyValueMembers unended = .ok [("A", .string "1"), ("B", .string "x\ny")] := by
    rw [Format.keyValueMembers, hunended]
    rfl
  have hb : Format.keyValueMembers "C=\"#\" # 3\nA=\nA=2" = .ok [("C", .string "#"), ("A", .string "2")] := by
    rw [Format.keyValueMembers, hmore]
    rfl
  have hc : Format.keyValueMembers "C=3\nD='\n" = .error (.malformed (.line ⟨2, .unterminated⟩)) := by
    rw [Format.keyValueMembers, hopen]
  obtain ⟨f, hf, hbelow, -⟩ := (keyValueMembers_append ha _).2 _ hc
  cases hf
  exact ⟨ha, ((keyValueMembers_append ha _).1 _ hb).1, hbelow⟩

end Stencil.KeyValue
