import Stencil.Proofs.KeyValue.Reading
import Stencil.Proofs.Format.Chain

/-!
# Blanks around assignments

The white space at the ends of a text makes no difference to its assignments. In front it holds blank lines
and the indentation of the first line, which are passed over. Behind it stands on the last line and on blank
lines after it: what follows a value there is cut off, what follows a closing quote may be blank, and an open
quote is closed by no blank.

The numbers of the lines are not the same, so the fault of a text that is refused may name another one.

Main statement: `keyValue_read_trimmed`.
-/

namespace Stencil.KeyValue

open Stencil.Text

variable {tail : List Char}

/-! ## Blanks behind a line -/

theorem splitAssignment?_append (ht : AllBlank tail) (cs : List Char) :
    splitAssignment? (cs ++ tail) = (splitAssignment? cs).map fun (a, b) => (a, b ++ tail) := by
  induction cs with
  | nil => exact splitAssignment?_eq_none_iff.mpr (not_mem_of_allBlank ht (by decide))
  | cons c cs ih =>
      rw [List.cons_append, splitAssignment?, splitAssignment?]
      split
      · rfl
      · rw [ih]
        cases splitAssignment? cs <;> rfl

/-- The text before the equals sign is the same, and the text after it goes on with the blanks. -/
theorem splitAssignment?_dropExport_append (ht : AllBlank tail) (cs : List Char) :
    splitAssignment? (dropExport (cs ++ tail))
      = (splitAssignment? (dropExport cs)).map fun (a, b) => (a, b ++ tail) := by
  by_cases hp : exportWord <+: cs
  · obtain ⟨text, rfl⟩ := hp
    rw [List.append_assoc, dropExport_exportWord, dropExport_exportWord]
    by_cases hb : trimStart text = []
    · rw [trimStart_append_of_allBlank ht hb, hb]
      rfl
    · rw [trimStart_append_of_ne tail hb, splitAssignment?_append ht]
  · rw [dropExport_of_unmarked hp]
    by_cases hq : exportWord <+: cs ++ tail
    · -- The blanks end the word, so the text has nothing behind it.
      have hcs : cs <+: exportWord :=
        (List.prefix_or_prefix_of_prefix hq (List.prefix_append cs tail)).resolve_left hp
      have hno : '=' ∉ cs := fun hm => absurd (hcs.subset hm) (by decide)
      obtain ⟨text, he⟩ := hq
      have htext : '=' ∉ trimStart text := fun hm => by
        have hmem : '=' ∈ cs ++ tail := he ▸ List.mem_append_right _ ((trimStart_isSuffixOf text).subset hm)
        rcases List.mem_append.mp hmem with h | h
        · exact hno h
        · exact not_mem_of_allBlank ht (by decide) h
      rw [← he, dropExport_exportWord, splitAssignment?_eq_none_iff.mpr htext,
        splitAssignment?_eq_none_iff.mpr hno]
      rfl
    · rw [dropExport_of_unmarked hq, splitAssignment?_append ht]

/-- What blanks behind a line add to what it says: the first line of a quoted value goes on with them. -/
def Statement.followed (tail : List Char) : Statement → Statement
  | .quoted key quote first => .quoted key quote (first ++ tail)
  | .nothing => .nothing
  | .plain key value => .plain key value

theorem beforeComment_append_allBlank (ht : AllBlank tail) (afterBlank : Bool) (rest : List Char) :
    ∃ more, AllBlank more ∧ beforeComment afterBlank (rest ++ tail) = beforeComment afterBlank rest ++ more := by
  induction rest generalizing afterBlank with
  | nil =>
      refine ⟨beforeComment afterBlank tail, ?_, rfl⟩
      obtain ⟨-, comment, he, -⟩ := exists_comment afterBlank tail
      rw [he] at ht
      exact fun c hc => ht c (List.mem_append_left comment hc)
  | cons c rest ih =>
      rw [List.cons_append, beforeComment, beforeComment]
      split
      · exact ⟨[], allBlank_nil, rfl⟩
      · obtain ⟨more, hm, he⟩ := ih (isBlank c)
        exact ⟨more, hm, by rw [he, List.cons_append]⟩

theorem plainValue_append (ht : AllBlank tail) (rest : List Char) :
    plainValue (rest ++ tail) = plainValue rest := by
  obtain ⟨more, hm, he⟩ := beforeComment_append_allBlank ht false rest
  rw [plainValue, he, trim_append_allBlank hm, plainValue]

theorem assignment_append (ht : AllBlank tail) (before rest : List Char) :
    assignment before (rest ++ tail) = (assignment before rest).map (·.followed tail) := by
  unfold assignment
  by_cases hk : isKey (trim before) = true
  · simp only [if_pos hk]
    by_cases hb : trimStart rest = []
    · simp only [trimStart_append_of_allBlank ht hb, hb, plainValue_append ht]
      rfl
    · obtain ⟨q, first, hq⟩ := List.exists_cons_of_ne_nil hb
      simp only [trimStart_append_of_ne tail hb, hq, List.cons_append, plainValue_append ht]
      cases Quote.ofChar? q <;> rfl
  · simp only [if_neg hk]
    rfl

/-- **Blanks behind a line** make no difference to it but to a quoted value that is still open. -/
theorem statement_append (ht : AllBlank tail) (line : List Char) :
    statement (line ++ tail) = (statement line).map (·.followed tail) := by
  unfold statement
  by_cases hb : trimStart line = []
  · rw [trimStart_append_of_allBlank ht hb, hb]
    rfl
  · obtain ⟨c, cs, hc⟩ := List.exists_cons_of_ne_nil hb
    rw [trimStart_append_of_ne tail hb, hc, List.cons_append]
    simp only
    split
    · rfl
    · rw [← List.cons_append, splitAssignment?_dropExport_append ht]
      cases splitAssignment? (dropExport (c :: cs)) with
      | none => rfl
      | some found => exact assignment_append ht found.1 found.2

/-! ## Blanks behind a quoted value -/

theorem closing?_of_allBlank (quote : Quote) (ht : AllBlank tail) : closing? quote tail = none := by
  cases hc : closing? quote tail with
  | none => rfl
  | some found =>
      obtain ⟨he, -⟩ := inside_of_closing? hc
      have hm : quote.char ∈ tail := by rw [he]; simp
      exact absurd hm (not_mem_of_allBlank ht (isBlank_char quote))

theorem closing?_append (quote : Quote) (ht : AllBlank tail) (first : List Char) :
    closing? quote (first ++ tail) = (closing? quote first).map fun (a, b) => (a, b ++ tail) := by
  fun_induction closing? quote first with
  | case1 => exact closing?_of_allBlank quote ht
  | case2 => exact closing?_quote quote tail
  | case3 c hc =>
      cases tail with
      | nil => simp [closing?, hc]
      | cons d tail =>
          have hd : AllBlank tail := fun e he => ht e (List.mem_cons_of_mem d he)
          show closing? quote (c :: d :: tail) = none
          simp [closing?, hc, closing?_of_allBlank quote hd, closing?_of_allBlank quote ht]
  | case4 d cs => exact closing?_quote quote (d :: cs ++ tail)
  | case5 c d cs hc hb ih =>
      rw [List.cons_append, List.cons_append, closing?, if_neg hc, if_pos hb, ih]
      cases closing? quote cs <;> rfl
  | case6 c d cs hc hb ih =>
      rw [List.cons_append] at ih
      rw [List.cons_append, List.cons_append, closing?, if_neg hc, if_neg hb, ih]
      cases closing? quote (d :: cs) <;> rfl

variable {blanks : List (List Char)}

/-- Blank lines close no quote. -/
theorem find?_of_allBlank (quote : Quote) (ht : AllBlank tail) (hb : ∀ l ∈ blanks, AllBlank l) :
    find? quote tail blanks = none := by
  induction blanks generalizing tail with
  | nil => rw [find?, closing?_of_allBlank quote ht]
  | cons l blanks ih =>
      obtain ⟨hl, hb⟩ := List.forall_mem_cons.mp hb
      rw [find?, closing?_of_allBlank quote ht]
      simp only
      rw [ih hl hb]
      rfl

/-- On the last line a quoted value is closed as it was, with the blanks behind what follows it. -/
theorem find?_last (quote : Quote) (ht : AllBlank tail) (hb : ∀ l ∈ blanks, AllBlank l)
    (last : List Char) :
    find? quote (last ++ tail) blanks
      = (find? quote last []).map fun f => ⟨f.inner, f.trailing ++ tail, f.used⟩ := by
  rw [find?.eq_def quote last []]
  cases hc : closing? quote last with
  | some found =>
      rw [find?.eq_def, closing?_append quote ht, hc]
      rfl
  | none =>
      have hnone : closing? quote (last ++ tail) = none := by rw [closing?_append quote ht, hc]; rfl
      cases blanks with
      | nil => rw [find?, hnone]; rfl
      | cons l blanks =>
          obtain ⟨hl, hb⟩ := List.forall_mem_cons.mp hb
          rw [find?, hnone]
          simp only
          rw [find?_of_allBlank quote hl hb]
          rfl

/-- A quoted value that is closed before the last line is found where it was; one that is closed on the last
line has the blanks behind what follows it. -/
theorem find?_behind (quote : Quote) (ht : AllBlank tail) (hb : ∀ l ∈ blanks, AllBlank l)
    (first : List Char) (ls : List (List Char)) (last : List Char) :
    find? quote first (ls ++ (last ++ tail) :: blanks)
      = (find? quote first (ls ++ [last])).map fun f =>
          if f.used ≤ ls.length then f else ⟨f.inner, f.trailing ++ tail, f.used⟩ := by
  induction ls generalizing first with
  | nil =>
      rw [List.nil_append, List.nil_append, find?, find?]
      cases closing? quote first with
      | some found => rfl
      | none =>
          simp only [find?_last quote ht hb]
          cases find? quote last [] <;> rfl
  | cons l ls ih =>
      rw [List.cons_append, List.cons_append, find?, find?]
      cases closing? quote first with
      | some found => rfl
      | none =>
          simp only [ih]
          cases find? quote l (ls ++ [last]) with
          | none => rfl
          | some f =>
              by_cases hu : f.used ≤ ls.length
              · simp [hu]
              · simp [hu]

theorem endsValue_append (ht : AllBlank tail) (trailing : List Char) :
    endsValue (trailing ++ tail) = endsValue trailing := by
  unfold endsValue
  by_cases hb : trimStart trailing = []
  · rw [trimStart_append_of_allBlank ht hb, hb]
  · obtain ⟨c, cs, hc⟩ := List.exists_cons_of_ne_nil hb
    rw [trimStart_append_of_ne tail hb, hc]
    rfl

/-! ## The lines of a text -/

theorem toOption_map {ε α β : Type} (f : α → β) (e : Except ε α) :
    (e.map f).toOption = e.toOption.map f := by
  cases e <;> rfl

theorem entriesFrom_of_allBlank (hb : ∀ l ∈ blanks, AllBlank l) (number : Nat) :
    entriesFrom number blanks = .ok [] := by
  induction blanks generalizing number with
  | nil => rw [entriesFrom]
  | cons l blanks ih =>
      obtain ⟨hl, hb⟩ := List.forall_mem_cons.mp hb
      rw [entriesFrom_of_nothing (statement_of_allBlank hl), ih hb]

/-- **Blanks behind the last line** leave the assignments as they are. -/
theorem entriesFrom_behind (ht : AllBlank tail) (hb : ∀ l ∈ blanks, AllBlank l)
    (ls : List (List Char)) (last : List Char) (n m : Nat) :
    (entriesFrom n (ls ++ (last ++ tail) :: blanks)).toOption
      = (entriesFrom m (ls ++ [last])).toOption := by
  have hdrop : ∀ k, ∀ l ∈ blanks.drop k, AllBlank l := fun k l hl => hb l (List.mem_of_mem_drop hl)
  -- The lines in front of the last are the same in both texts, but a value that starts on one of them may end
  -- on the last.
  match ls with
  | [] =>
      rw [List.nil_append, List.nil_append, entriesFrom, entriesFrom, statement_append ht]
      cases statement last with
      | error fault => rfl
      | ok said =>
          cases said with
          | nothing => simp [Statement.followed, Except.map, entriesFrom_of_allBlank hb, entriesFrom]
          | plain key value =>
              simp [Statement.followed, Except.map, entriesFrom_of_allBlank hb, entriesFrom]
          | quoted key quote first =>
              simp only [Statement.followed, Except.map, find?_last quote ht hb]
              cases find? quote first [] with
              | none => rfl
              | some found =>
                  simp only [Option.map_some, endsValue_append ht, List.drop_nil]
                  split
                  · simp [entriesFrom_of_allBlank (hdrop _), entriesFrom]
                  · rfl
  | l :: ls =>
      rw [List.cons_append, List.cons_append, entriesFrom, entriesFrom]
      cases statement l with
      | error fault => rfl
      | ok said =>
          cases said with
          | nothing => exact entriesFrom_behind ht hb ls last _ _
          | plain key value => simp only [toOption_map, entriesFrom_behind ht hb ls last _ (m + 1)]
          | quoted key quote first =>
              simp only [find?_behind quote ht hb]
              cases find? quote first (ls ++ [last]) with
              | none => rfl
              | some found =>
                  -- Either the value ends in front of the last line, or on it, and then only blank lines are
                  -- left to read.
                  by_cases hu : found.used ≤ ls.length
                  · have hlt : (ls.drop found.used).length < (l :: ls).length := by
                      simp only [List.length_cons, List.length_drop]
                      omega
                    simp only [Option.map_some, if_pos hu, List.drop_append_of_le_length hu]
                    split
                    · simp only [toOption_map]
                      rw [entriesFrom_behind ht hb (ls.drop found.used) last]
                    · rfl
                  · obtain ⟨k, hk⟩ := Nat.exists_eq_add_of_lt (Nat.lt_of_not_le hu)
                    have hnone : (ls ++ [last]).drop found.used = [] :=
                      List.drop_eq_nil_of_le (by simp only [List.length_append, List.length_singleton]; omega)
                    have hblank : (ls ++ (last ++ tail) :: blanks).drop found.used = blanks.drop k := by
                      rw [List.drop_append, List.drop_eq_nil_of_le (by omega),
                        show found.used - ls.length = k + 1 by omega]
                      rfl
                    simp only [Option.map_some, if_neg hu, endsValue_append ht, hnone, hblank]
                    split
                    · simp [entriesFrom_of_allBlank (hdrop _), entriesFrom]
                    · rfl
termination_by ls.length

/-- The lines of a text with blanks behind it. -/
theorem exists_lines_append {core trail : List Char} (hne : core ≠ []) (hc : EndsSolid core)
    (ht : AllBlank trail) :
    ∃ ls last tail blanks, lines core = ls ++ [last]
      ∧ lines (core ++ trail) = ls ++ (last ++ tail) :: blanks
      ∧ AllBlank tail ∧ ∀ l ∈ blanks, AllBlank l := by
  induction core using pieces_induction '\n' with
  | last core hn =>
      refine ⟨[], core, ?_⟩
      -- If there is a line end among the blanks, the last line goes as far as the first of them.
      by_cases hm : '\n' ∈ trail
      · obtain ⟨a, b, rfl, ha⟩ := List.eq_append_cons_of_mem hm
        obtain ⟨hta, htb⟩ := List.forall_mem_append.mp ht
        have hr : core.getLast? ≠ some '\r' := fun h => absurd (hc _ h) (by decide)
        have hline : dropReturn (core ++ a) = core ++ dropReturn a := by
          -- A return that is dropped in front of the line end is one of the blanks, as the text ends solid.
          by_cases he : a = []
          · rw [he, List.append_nil, dropReturn_of_ne hr]
            exact (List.append_nil core).symm
          · exact dropReturn_append_of_ne core he
        refine ⟨dropReturn a, lines b, lines_of_not_mem hne hn, ?_, fun c hc => hta c (dropReturn_subset a hc), ?_⟩
        · rw [← List.append_assoc, lines_append_newline, hline]
          · rfl
          · exact fun h => (List.mem_append.mp h).elim hn ha
        · exact fun l hl c hc => htb c (List.mem_cons_of_mem _ (mem_of_mem_lines hl hc))
      · refine ⟨trail, [], lines_of_not_mem hne hn, lines_of_not_mem (by simp [hne]) ?_, ht, by simp⟩
        exact fun h => (List.mem_append.mp h).elim hn hm
  | more a b hn ih =>
      have hb : b ≠ [] := by
        rintro rfl
        exact absurd (hc '\n' (by simp)) (by decide)
      have hsolid : EndsSolid b := fun c h => hc c (by
        rw [getLast?_append_of_ne_nil a (List.cons_ne_nil _ _), List.getLast?_cons_of_ne_nil hb, h])
      obtain ⟨ls, last, tail, blanks, hls, hlines, htail, hblanks⟩ := ih hb hsolid
      refine ⟨dropReturn a :: ls, last, tail, blanks, ?_, ?_, htail, hblanks⟩
      · rw [lines_append_newline hn, hls, List.cons_append]
      · rw [List.append_assoc, List.cons_append, lines_append_newline hn, hlines, List.cons_append]

/-! ## Blanks in front -/

theorem toOption_entriesFrom (ls : List (List Char)) (n m : Nat) :
    (entriesFrom n ls).toOption = (entriesFrom m ls).toOption := by
  rcases List.eq_nil_or_concat ls with rfl | ⟨ls, last, rfl⟩
  · rw [entriesFrom, entriesFrom]
  · have hnone : ∀ l ∈ ([] : List (List Char)), AllBlank l := by simp
    have h := entriesFrom_behind allBlank_nil hnone ls last n m
    rwa [List.append_nil, ← List.concat_eq_append] at h

theorem entriesFrom_of_statement_eq {l l' : List Char} (h : statement l = statement l') (n : Nat)
    (ls : List (List Char)) : entriesFrom n (l :: ls) = entriesFrom n (l' :: ls) := by
  rw [entriesFrom, entriesFrom, h]

theorem statement_indented {indent : List Char} (hi : AllBlank indent) (line : List Char) :
    statement (indent ++ line) = statement line := by
  rw [statement, trimStart_append_of_blank hi]
  rfl

/-- **Blanks in front of a text** leave its assignments as they are. -/
theorem entriesFrom_indented {lead : List Char} (hl : AllBlank lead) (cs : List Char) (n m : Nat) :
    (entriesFrom n (lines (lead ++ cs))).toOption = (entriesFrom m (lines cs)).toOption := by
  induction lead using pieces_induction '\n' generalizing n with
  | last lead hn =>
      induction cs using pieces_induction '\n' with
      | last cs hc =>
          by_cases hcs : cs = []
          · rw [hcs, List.append_nil, lines_nil, entriesFrom_of_allBlank, entriesFrom]
            exact fun l h c hc => hl c (mem_of_mem_lines h hc)
          · rw [lines_of_not_mem hcs hc, lines_of_not_mem (by simp [hcs]),
              entriesFrom_of_statement_eq (statement_indented hl cs)]
            · exact toOption_entriesFrom _ n m
            · exact fun h => (List.mem_append.mp h).elim hn hc
      | more a b ha _ =>
          have hs : statement (dropReturn (lead ++ a)) = statement (dropReturn a) := by
            -- With blanks on it, an empty first line still says nothing.
            by_cases hne : a = []
            · rw [hne, List.append_nil, statement_of_allBlank (fun c hc => hl c (dropReturn_subset lead hc))]
              rfl
            · rw [dropReturn_append_of_ne lead hne, statement_indented hl]
          rw [← List.append_assoc, lines_append_newline ha, lines_append_newline,
            entriesFrom_of_statement_eq hs]
          · exact toOption_entriesFrom _ n m
          · exact fun h => (List.mem_append.mp h).elim hn ha
  | more a b ha ih =>
      obtain ⟨hla, hlb⟩ := List.forall_mem_append.mp hl
      rw [List.append_assoc, List.cons_append, lines_append_newline ha,
        entriesFrom_of_nothing (statement_of_allBlank (fun c hc => hla c (dropReturn_subset a hc)))]
      exact ih (List.forall_mem_cons.mp hlb).2 _

/-! ## Texts -/

/-- **The assignments of a text are those of the trimmed text.** -/
theorem toOption_entries_trim (cs : List Char) :
    (entries (trim cs)).toOption = (entries cs).toOption := by
  obtain ⟨lead, trail, he, hl, ht, -, hw⟩ := trim_eq_iff.mp (rfl : trim cs = trim cs)
  generalize trim cs = core at he hw
  subst he
  rw [entries, entries, List.append_assoc, entriesFrom_indented hl _ 1 1]
  by_cases hne : core = []
  · have hb : ∀ l ∈ lines trail, AllBlank l := fun l h c hc => ht c (mem_of_mem_lines h hc)
    rw [hne, lines_nil, List.nil_append, entriesFrom_of_allBlank hb, entriesFrom]
  · obtain ⟨ls, last, tail, blanks, hcore, hlines, htail, hblanks⟩ := exists_lines_append hne hw ht
    rw [hcore, hlines, entriesFrom_behind htail hblanks ls last 1 1]

/-- **White space at the ends of a text makes no difference to its assignments**: it and the trimmed text are
read as the same variables, or both are refused. -/
theorem keyValue_read_trimmed (text : String) :
    (Format.read .keyValue (trimmed text)).toOption = (Format.read .keyValue text).toOption := by
  have hentries : (entries (trimmed text).toList).toOption = (entries text.toList).toOption := by
    rw [toList_trimmed, toOption_entries_trim]
  unfold Format.read
  rw [isBlankText_trimmed]
  split
  · rfl
  · simp only [Format.members, Format.keyValueMembers]
    cases h : entries (trimmed text).toList <;> cases h' : entries text.toList <;>
      simp_all [Except.toOption]

end Stencil.KeyValue
