import Stencil.Proofs.KeyValue.Statement
import Stencil.Proofs.Members

/-!
# Reading follows the grammar

Every row of lines starts with a clause or is broken at its first line (`exists_clause_or_broken`). The
reader takes exactly the lines of a clause and goes on behind them (`entriesFrom_clause`), and it stops
at a broken line (`entriesFrom_broken`). So it reads every document (`entriesFrom_document`), and refuses
every other text at its first fault (`entriesFrom_refused`).

Main statement: `keyValue_read_eq_iff`.
-/

namespace Stencil.KeyValue

open Stencil.Text

/-! ## Where a value ends -/

theorem endsValue_iff {trailing : List Char} : endsValue trailing = true ↔ Ends trailing := by
  unfold endsValue Ends
  cases ht : trimStart trailing with
  | nil => exact ⟨fun _ => .inl (trimStart_eq_nil_iff.mp ht), fun _ => rfl⟩
  | cons c cs =>
      have hb : ¬ AllBlank trailing := fun hb => by simp [trimStart_eq_nil_iff.mpr hb] at ht
      have hc : IsComment trailing ↔ c = '#' := by
        constructor
        · intro h
          obtain ⟨text, he⟩ := trimStart_of_isComment h
          exact (List.cons.inj (ht.symm.trans he)).1
        · rintro rfl
          exact isComment_of_trimStart ht
      simp [hb, hc]

theorem mem_of_assigns {line key rest : List Char} (h : Assigns line key rest) {c : Char}
    (hc : c ∈ rest) : c ∈ line := by
  obtain ⟨before, hs, -, -⟩ := h
  exact mem_of_said hs (List.mem_append_right _ (List.mem_cons_of_mem _ hc))

theorem mem_of_opens {quote : Quote} {rest first : List Char} (h : Opens quote rest first)
    {c : Char} (hc : c ∈ first) : c ∈ rest := by
  obtain ⟨gap, rfl, -⟩ := h
  exact List.mem_append_right _ (List.mem_cons_of_mem _ hc)

/-- The lines of a quoted value hold no newline when the lines of its assignment hold none. -/
theorem newline_not_mem_of_opens {quote : Quote} {line key rest first : List Char}
    {following : List (List Char)} (hn : ∀ l ∈ line :: following, '\n' ∉ l)
    (ha : Assigns line key rest) (ho : Opens quote rest first) :
    ∀ l ∈ first :: following, '\n' ∉ l := by
  intro l hl hm
  rcases List.mem_cons.mp hl with rfl | hl
  · exact hn line List.mem_cons_self (mem_of_assigns ha (mem_of_opens ho hm))
  · exact hn l (List.mem_cons_of_mem _ hl) hm

/-- A quoted value that closes makes a clause or is followed by something; one that does not is a fault
as well. -/
theorem quoted_clause_or_broken {quote : Quote} {line key rest first : List Char}
    {following : List (List Char)} (hn : ∀ l ∈ line :: following, '\n' ∉ l)
    (ha : Assigns line key rest) (hk : IsKey key) (ho : Opens quote rest first) :
    (∃ more after e, following = more ++ after ∧ Clause (line :: more) e)
      ∨ ∃ fault, Broken (line :: following) fault := by
  have hn' := newline_not_mem_of_opens hn ha ho
  cases hf : find? quote first following with
  | none =>
      refine .inr ⟨_, .unterminated ha hk ho fun inner trailing value hj => ?_⟩
      exact not_inside_of_find?_eq_none hn' hf hj
  | some found =>
      obtain ⟨more, after, rfl, -, he⟩ := encloses_of_find? hn' hf
      by_cases ht : Ends found.trailing
      · exact .inl ⟨more, after, _, rfl, .quoted ha hk ho he ht⟩
      · exact .inr ⟨_, .textAfterQuote ha hk ho he ht (trim_eq_iff.mp rfl)⟩

/-- **Every line without a newline starts a clause or is broken.** -/
theorem exists_clause_or_broken {line : List Char} {following : List (List Char)}
    (hn : ∀ l ∈ line :: following, '\n' ∉ l) :
    (∃ more after e, following = more ++ after ∧ Clause (line :: more) e)
      ∨ ∃ fault, Broken (line :: following) fault := by
  by_cases hb : AllBlank line
  · exact .inl ⟨[], following, none, rfl, .blank hb⟩
  by_cases hc : IsComment line
  · exact .inl ⟨[], following, none, rfl, .comment hc⟩
  obtain ⟨text, hs⟩ := exists_said line
  by_cases hm : '=' ∈ text
  · obtain ⟨before, rest, rfl, hbefore⟩ := List.eq_append_cons_of_mem hm
    have ha : Assigns line (trim before) rest := ⟨before, hs, hbefore, trim_eq_iff.mp rfl⟩
    by_cases hk : IsKey (trim before)
    · by_cases ho : ∃ quote first, Opens quote rest first
      · obtain ⟨quote, first, ho⟩ := ho
        exact quoted_clause_or_broken hn ha hk ho
      · have hp : IsPlain rest (plainValue rest) :=
          ⟨fun quote first h => ho ⟨quote, first, h⟩, plainValue_eq_iff.mp rfl⟩
        exact .inl ⟨[], following, _, rfl, .plain ha hk hp⟩
    · exact .inr ⟨_, .invalidKey hc ha hk⟩
  · exact .inr ⟨_, .noAssignment hb hc hs hm⟩

/-! ## What the reader makes of a clause -/

/-- An assignment as the reader returns it. -/
def entry (e : List Char × List Char) : Entry := (String.ofList e.1, String.ofList e.2)

/-- What is found of a quoted value, and what follows the closing quote. -/
theorem find?_of_encloses {quote : Quote} {line key rest first value trailing : List Char}
    {more : List (List Char)} (hn : ∀ l ∈ line :: more, '\n' ∉ l) (ha : Assigns line key rest)
    (ho : Opens quote rest first) (he : Encloses quote (first :: more) value trailing)
    (after : List (List Char)) :
    ∃ inner, find? quote first (more ++ after) = some ⟨inner, trailing, more.length⟩
      ∧ quote.value inner = value := by
  obtain ⟨inner, hj, ht, hi⟩ := he
  exact ⟨inner, find?_of_inside (newline_not_mem_of_opens hn ha ho) hj ht hi after,
    value_of_inside hi⟩

theorem entriesFrom_of_nothing {line : List Char} (h : statement line = .ok .nothing) (number : Nat)
    (after : List (List Char)) :
    entriesFrom number (line :: after) = entriesFrom (number + 1) after := by
  rw [entriesFrom, h]

/-- **A clause is read**, and reading goes on behind it. -/
theorem entriesFrom_clause {taken : List (List Char)} {e : Option (List Char × List Char)}
    (h : Clause taken e) (hn : ∀ l ∈ taken, '\n' ∉ l) (number : Nat) (after : List (List Char)) :
    entriesFrom number (taken ++ after)
      = (entriesFrom (number + taken.length) after).map (e.toList.map entry ++ ·) := by
  cases h with
  | blank hb =>
      rw [List.singleton_append, entriesFrom_of_nothing (statement_of_allBlank hb)]
      cases entriesFrom (number + 1) after <;> rfl
  | comment hc =>
      rw [List.singleton_append, entriesFrom_of_nothing (statement_of_isComment hc)]
      cases entriesFrom (number + 1) after <;> rfl
  | plain ha hk hp =>
      rw [List.singleton_append, entriesFrom, statement_of_isPlain ha hk hp]
      rfl
  | @quoted quote line key rest first value trailing more ha hk ho he ht =>
      obtain ⟨inner, hf, rfl⟩ := find?_of_encloses hn ha ho he after
      rw [List.cons_append, entriesFrom, statement_of_opens ha hk ho]
      simp only [hf, endsValue_iff.mpr ht, if_true, List.drop_left, List.length_cons]
      rw [Nat.add_assoc, Nat.add_comm 1]
      rfl

/-- **A broken line is refused.** -/
theorem entriesFrom_broken {ls : List (List Char)} {fault : Fault} (h : Broken ls fault)
    (hn : ∀ l ∈ ls, '\n' ∉ l) (number : Nat) : entriesFrom number ls = .error ⟨number, fault⟩ := by
  cases h with
  | noAssignment hb hc hs hm => rw [entriesFrom, statement_of_noAssignment hb hc hs hm]
  | invalidKey hc ha hk => rw [entriesFrom, statement_of_invalidKey hc ha hk]
  | @unterminated quote line key rest first following ha hk ho hnone =>
      rw [entriesFrom, statement_of_opens ha hk ho]
      cases hf : find? quote first following with
      | none => simp only [hf]
      | some found =>
          have hn' := newline_not_mem_of_opens hn ha ho
          obtain ⟨more, after, rfl, -, inner, hj, -, hi⟩ := encloses_of_find? hn' hf
          refine absurd hi (hnone inner (found.trailing ++ after.flatMap ('\n' :: ·)) _ ?_)
          rw [join_append, hj, List.append_assoc, List.cons_append]
  | @textAfterQuote quote line key rest first value trailing text more following ha hk ho he ht htrim =>
      have hn' : ∀ l ∈ line :: more, '\n' ∉ l := fun l hl => hn l (List.mem_append_left following hl)
      obtain ⟨inner, hf, -⟩ := find?_of_encloses hn' ha ho he following
      have hends : endsValue trailing = false := by
        rw [← Bool.not_eq_true, endsValue_iff]
        exact ht
      rw [entriesFrom, statement_of_opens ha hk ho]
      simp only [hf, hends, trim_eq_iff.mpr htrim]
      rfl

/-! ## Documents -/

theorem newline_not_mem_left {taken rest : List (List Char)} (hn : ∀ l ∈ taken ++ rest, '\n' ∉ l) :
    ∀ l ∈ taken, '\n' ∉ l := fun l hl => hn l (List.mem_append_left rest hl)

theorem newline_not_mem_right {taken rest : List (List Char)} (hn : ∀ l ∈ taken ++ rest, '\n' ∉ l) :
    ∀ l ∈ rest, '\n' ∉ l := fun l hl => hn l (List.mem_append_right taken hl)

/-- **A document is read**, clause by clause. -/
theorem entriesFrom_document {ls : List (List Char)} {es : List (List Char × List Char)}
    (h : Document ls es) (hn : ∀ l ∈ ls, '\n' ∉ l) (number : Nat) :
    entriesFrom number ls = .ok (es.map entry) := by
  induction h generalizing number with
  | nil => rw [entriesFrom]; rfl
  | cons hc _ ih =>
      rw [entriesFrom_clause hc (newline_not_mem_left hn), ih (newline_not_mem_right hn),
        List.map_append]
      rfl

/-- **A text with a fault is refused** at the first one. -/
theorem entriesFrom_refused {ls : List (List Char)} {n : Nat} {fault : Fault}
    (h : Refused ls n fault) (hn : ∀ l ∈ ls, '\n' ∉ l) (number : Nat) :
    entriesFrom number ls = .error ⟨number + n, fault⟩ := by
  induction h generalizing number with
  | here hb => exact entriesFrom_broken hb hn number
  | later hc _ ih =>
      rw [entriesFrom_clause hc (newline_not_mem_left hn), ih (newline_not_mem_right hn),
        Nat.add_assoc]
      rfl

/-- **Every row of lines is a document or is refused.** -/
theorem document_or_refused (ls : List (List Char)) (hn : ∀ l ∈ ls, '\n' ∉ l) :
    (∃ es, Document ls es) ∨ ∃ n fault, Refused ls n fault := by
  match ls with
  | [] => exact .inl ⟨[], .nil⟩
  | line :: following =>
      rcases exists_clause_or_broken hn with ⟨more, after, e, rfl, hc⟩ | ⟨fault, hb⟩
      · have hlt : after.length < (line :: (more ++ after)).length := by
          simp only [List.length_cons, List.length_append]
          omega
        have hn' : ∀ l ∈ line :: more ++ after, '\n' ∉ l := hn
        rcases document_or_refused after (newline_not_mem_right hn') with ⟨es, hd⟩ | ⟨n, fault, hr⟩
        · exact .inl ⟨_, .cons hc hd⟩
        · exact .inr ⟨_, fault, .later hc hr⟩
      · exact .inr ⟨0, fault, .here hb⟩
termination_by ls.length

theorem document_of_allBlank {ls : List (List Char)} (h : ∀ l ∈ ls, AllBlank l) : Document ls [] := by
  induction ls with
  | nil => exact .nil
  | cons line ls ih =>
      exact .cons (.blank (h line List.mem_cons_self))
        (ih fun l hl => h l (List.mem_cons_of_mem _ hl))

/-! ## Texts -/

/-- A blank text makes no assignment and has no fault. -/
theorem entries_of_allBlank {text : List Char} (h : AllBlank text) : entries text = .ok [] := by
  have hb : ∀ l ∈ lines text, AllBlank l := fun l hl c hc => h c (mem_of_mem_lines hl hc)
  exact entriesFrom_document (document_of_allBlank hb) (fun _ => newline_not_mem_of_mem_lines) 1

theorem entries_of_document {text : List Char} {ls : List (List Char)}
    {es : List (List Char × List Char)} (hl : IsLines text ls) (h : Document ls es) :
    entries text = .ok (es.map entry) := by
  obtain rfl := lines_eq_iff.mpr hl
  exact entriesFrom_document h (fun _ => newline_not_mem_of_mem_lines) 1

theorem entries_of_refused {text : List Char} {ls : List (List Char)} {n : Nat} {fault : Fault}
    (hl : IsLines text ls) (h : Refused ls n fault) :
    entries text = .error ⟨n + 1, fault⟩ := by
  obtain rfl := lines_eq_iff.mpr hl
  rw [Nat.add_comm]
  exact entriesFrom_refused h (fun _ => newline_not_mem_of_mem_lines) 1

theorem isBlankText_eq_false {text : String} (h : ¬ AllBlank text.toList) :
    isBlankText text = false := by
  rw [← Bool.not_eq_true, isBlankText_iff, trim_eq_nil_iff]
  exact h

theorem isBlankText_eq_true {text : String} (h : AllBlank text.toList) : isBlankText text = true := by
  rw [isBlankText_iff, trim_eq_nil_iff]
  exact h

theorem members_of_entries (es : List (List Char × List Char)) :
    Members.ofEntries ((es.map entry).map fun e => (e.1, Json.string e.2)) = membersOf es := by
  rw [List.map_map]
  rfl

/-- What reading makes of a document that is not blank: its assignments, if it has any. -/
theorem read_of_document {text : String} (hb : ¬ AllBlank text.toList) {ls : List (List Char)}
    {es : List (List Char × List Char)} (hl : IsLines text.toList ls) (hd : Document ls es) :
    Format.read .keyValue text
      = match Variables.ofMembers? (membersOf es) with
        | none => .error .noKeys
        | some vars => .ok vars := by
  rw [Format.read, isBlankText_eq_false hb, Format.members, Format.keyValueMembers,
    entries_of_document hl hd]
  simp only [members_of_entries]
  rfl

theorem read_of_refused {text : String} (hb : ¬ AllBlank text.toList) {ls : List (List Char)}
    {n : Nat} {fault : Fault} (hl : IsLines text.toList ls) (hr : Refused ls n fault) :
    Format.read .keyValue text = .error (.malformed (.line ⟨n + 1, fault⟩)) := by
  rw [Format.read, isBlankText_eq_false hb, Format.members, Format.keyValueMembers,
    entries_of_refused hl hr]
  rfl

/-- Assignments make members. -/
theorem membersOf_ne_nil {es : List (List Char × List Char)} (h : es ≠ []) : membersOf es ≠ [] :=
  Members.ofEntries_ne_nil (by simpa using h)

theorem read_of_outcome {text : String} {outcome : Except Rejection Variables}
    (h : Outcome text.toList outcome) : Format.read .keyValue text = outcome := by
  cases h with
  | empty hb => rw [Format.read, isBlankText_eq_true hb, if_pos rfl]
  | noKeys hb hl hd => rw [read_of_document hb hl hd]; rfl
  | refused hl hr =>
      refine read_of_refused (fun hb => ?_) hl hr
      have he := (entries_of_allBlank hb).symm.trans (entries_of_refused hl hr)
      contradiction
  | @accepted ls es vars hl hd hne hm =>
      have hb : ¬ AllBlank text.toList := fun hb => by
        have he := (entries_of_allBlank hb).symm.trans (entries_of_document hl hd)
        exact hne (by simpa using he)
      rw [read_of_document hb hl hd, Variables.ofMembers?_of_members hm]

theorem exists_outcome (text : List Char) : ∃ outcome, Outcome text outcome := by
  by_cases hb : AllBlank text
  · exact ⟨_, .empty hb⟩
  have hl := lines_eq_iff.mp (rfl : lines text = lines text)
  rcases document_or_refused (lines text) (fun _ => newline_not_mem_of_mem_lines) with
    ⟨es, hd⟩ | ⟨n, fault, hr⟩
  · by_cases hne : es = []
    · exact ⟨_, .noKeys hb hl (hne ▸ hd)⟩
    · let vars : Variables := ⟨membersOf es, membersOf_ne_nil hne⟩
      exact ⟨.ok vars, .accepted hl hd hne rfl⟩
  · exact ⟨_, .refused hl hr⟩

/-- **The assignments of a text are read exactly as its grammar says**: the reader returns the one
outcome that the grammar gives the text. -/
theorem keyValue_read_eq_iff (text : String) (outcome : Except Rejection Variables) :
    Format.read .keyValue text = outcome ↔ Outcome text.toList outcome := by
  constructor
  · rintro rfl
    obtain ⟨outcome, h⟩ := exists_outcome text.toList
    rwa [read_of_outcome h]
  · exact read_of_outcome

end Stencil.KeyValue
