import Stencil.Proofs.KeyValue.Composition
import Stencil.Proofs.KeyValue.RoundTrip

/-!
# Comments behind assignments

The number sign of a comment behind a value without quotes directly follows a blank. Behind a closing quote the reader
trims what is left of the line before it looks for the number sign, and so it does not see whether a blank stands
there: the sign may follow the quote itself.

An assignment is cut at its comment (`Cut`). What stands in the comment has no part in it: any other comment may stand
there, with blanks in front or without, or none at all (`clause_of_cut`).

Main statement: `comment_of_stands`.
-/

namespace Stencil.KeyValue

open Stencil.Text

/-- An assignment whose last line is cut at its comment: the lines in front of the last one, what is kept of the last
one, and the comment that is dropped, which is empty if there is none. -/
inductive Cut : List (List Char) → List Char → List Char → List Char × List Char → Prop
  | plain {kept comment key text value : List Char} :
      Assigns (kept ++ comment) key (text ++ comment) → IsKey key →
      (∀ quote first, ¬ Opens quote (text ++ comment) first) →
      BeforeComment (text ++ comment) text → IsTrim text value →
      Cut [] kept comment (key, value)
  | quoted {quote : Quote} {line key rest first value gap kept comment : List Char}
      {more front : List (List Char)} :
      Assigns line key rest → IsKey key → Opens quote rest first →
      Encloses quote (first :: more) value (gap ++ comment) → AllBlank gap →
      comment = [] ∨ comment.head? = some '#' →
      line :: more = front ++ [kept ++ comment] →
      Cut front kept comment (key, value)

/-- An assignment of a text, with the lines in front of it, its own and those behind it. The lines in front are a
document, so the reader comes to it. -/
structure Stands (text : String) (before taken after : List (List Char)) (e : List Char × List Char) : Prop where
  lines_eq : lines text.toList = before ++ (taken ++ after)
  document : ∃ es, Document before es
  clause : Clause taken (some e)

/-- Whether the value of an assignment stands in quotes of a kind. -/
def InQuotes (quote : Quote) (taken : List (List Char)) (key : List Char) : Prop :=
  ∃ line more rest first, taken = line :: more ∧ Assigns line key rest ∧ Opens quote rest first

/-! ## Parts of a line -/

section Parts

variable {line key rest text comment tail value first : List Char} {quote : Quote}

/-- What stands behind the equals sign has no part in what a line assigns to. -/
theorem exists_assigns_append (h : Assigns line key rest) :
    ∃ front, line = front ++ rest ∧ ∀ other, Assigns (front ++ other) key other := by
  obtain ⟨before, hs, hn, hk⟩ := h
  generalize ht : before ++ '=' :: rest = said at hs
  cases hs with
  | @bare indent _ hi hsolid hw =>
      subst ht
      refine ⟨indent ++ before ++ ['='], by simp, fun other => ⟨before, ?_, hn, hk⟩⟩
      have hsolid' : StartsSolid (before ++ '=' :: other) := by
        cases before with
        | nil => exact startsSolid_cons.mpr (by decide)
        | cons c before => exact startsSolid_cons.mpr (startsSolid_cons.mp hsolid)
      have hw' : ¬ exportWord <+: before ++ '=' :: other := fun h =>
        hw (exportWord_prefix_append_iff.mpr (exportWord_prefix_append_iff.mp h))
      simpa using Says.bare hi hsolid' hw'
  | @exported indent _ hi =>
      subst ht
      refine ⟨indent ++ (exportWord ++ (before ++ ['='])), by simp, fun other => ⟨before, ?_, hn, hk⟩⟩
      have hsays : Says (indent ++ (exportWord ++ (before ++ '=' :: other))) (before ++ '=' :: other) := .exported hi
      simpa using hsays

theorem Opens.append (h : Opens quote text first) (tail : List Char) :
    Opens quote (text ++ tail) (first ++ tail) := by
  obtain ⟨gap, rfl, hg⟩ := h
  exact ⟨gap, by simp, hg⟩

/-- What ends a value opens none. -/
theorem opens_of_append (h : Opens quote (text ++ tail) first) (ht : Ends tail) :
    ∃ first, Opens quote text first := by
  have htrim := trimStart_of_opens h
  rw [trimStart_append_eq] at htrim
  split at htrim
  · rcases ht with hb | hc
    · rw [trimStart_eq_nil_iff.mpr hb] at htrim
      contradiction
    · obtain ⟨c, hc⟩ := trimStart_of_isComment hc
      have hsign : quote.char = '#' := (List.cons.inj (htrim.symm.trans hc)).1
      exact absurd hsign (by cases quote <;> decide)
  · rename_i hne
    obtain ⟨c, cs, hcs⟩ := List.exists_cons_of_ne_nil hne
    rw [hcs, List.cons_append] at htrim
    obtain ⟨rfl, -⟩ := List.cons.inj htrim
    exact ⟨cs, opens_of_trimStart hcs⟩

theorem not_endsSolid_append (h : ¬ EndsSolid text) (ht : AllBlank tail) : ¬ EndsSolid (text ++ tail) := by
  intro hs
  refine h fun c hc => hs c ?_
  cases hl : tail.getLast? with
  | none => rw [List.getLast?_append, hl, Option.none_or, hc]
  | some d =>
      have hd : isBlank d = false := hs d (by rw [List.getLast?_append, hl, Option.some_or])
      rw [ht d (List.mem_of_getLast? hl)] at hd
      contradiction

/-- **A value is the same whatever ends it** behind a blank: blanks, or a comment. -/
theorem isPlain_append (hno : ∀ quote first, ¬ Opens quote text first)
    (hclear : ∀ a b, text = a ++ '#' :: b → EndsSolid a) (hblank : ¬ EndsSolid text)
    (hv : IsTrim text value) (ht : Ends tail) : IsPlain (text ++ tail) value := by
  -- blanks add no number sign, so every one of the longer text is one of the shorter
  have hclear' {t : List Char} (htb : AllBlank t) (a b : List Char) (he : text ++ t = a ++ '#' :: b) :
      EndsSolid a := by
    have hsign : '#' ∉ t := not_mem_of_allBlank htb (by decide)
    rcases List.append_eq_append_iff.mp he with ⟨m, -, hm⟩ | ⟨m, hm, hb⟩
    · exact absurd (hm ▸ List.mem_append_right m List.mem_cons_self) hsign
    · cases m with
      | nil => exact absurd (hb ▸ List.mem_cons_self : '#' ∈ [] ++ t) hsign
      | cons c m =>
          obtain ⟨rfl, -⟩ := List.cons.inj hb
          exact hclear a m hm
  have hv' {t : List Char} (htb : AllBlank t) : IsTrim (text ++ t) value := by
    rw [← trim_eq_iff, trim_append_allBlank htb]
    exact trim_eq_iff.mpr hv
  refine ⟨fun quote first h => ?_, ?_⟩
  · obtain ⟨first', h'⟩ := opens_of_append h ht
    exact hno quote first' h'
  · rcases ht with hb | ⟨indent, c, rfl, hi⟩
    · exact ⟨text ++ tail, ⟨hclear' hb, [], by simp, .inl rfl⟩, hv' hb⟩
    · refine ⟨text ++ indent, ⟨hclear' hi, '#' :: c, by simp, .inr ⟨rfl, ?_⟩⟩, hv' hi⟩
      exact not_endsSolid_append hblank hi

theorem ends_append {gap : List Char} (hg : AllBlank gap) (ht : Ends tail) : Ends (gap ++ tail) := by
  rcases ht with hb | ⟨indent, c, rfl, hi⟩
  · exact .inl (List.forall_mem_append.mpr ⟨hg, hb⟩)
  · exact .inr ⟨gap ++ indent, c, by simp, List.forall_mem_append.mpr ⟨hg, hi⟩⟩

/-- What is kept of a line ends with what is kept behind its equals sign. -/
theorem exists_assigns_append_of_cut {kept : List Char} (h : Assigns (kept ++ comment) key (text ++ comment)) :
    ∃ head, kept = head ++ text ∧ ∀ other, Assigns (head ++ other) key other := by
  obtain ⟨head, hline, hassigns⟩ := exists_assigns_append h
  rw [← List.append_assoc] at hline
  exact ⟨head, List.append_cancel_right hline, hassigns⟩

end Parts

/-! ## The line of a closing quote -/

section Quoted

variable {quote : Quote} {line key rest first value trailing inner : List Char} {more ls : List (List Char)}

/-- A closing quote stands on the last of its lines, and what follows it there can be anything. -/
theorem exists_join_last (hne : ls ≠ []) (hj : join ['\n'] ls = inner ++ quote.char :: trailing)
    (ht : '\n' ∉ trailing) :
    ∃ front a, ls = front ++ [a ++ quote.char :: trailing]
      ∧ ∀ other, join ['\n'] (front ++ [a ++ quote.char :: other]) = inner ++ quote.char :: other := by
  induction ls generalizing inner with
  | nil => exact absurd rfl hne
  | cons l ls ih =>
      cases ls with
      | nil => exact ⟨[], inner, congrArg ([·]) hj, fun other => rfl⟩
      | cons next ls =>
          rw [join_cons_cons] at hj
          rcases closing_cases hj with ⟨t, -, rfl⟩ | ⟨inner', rfl, hj'⟩
          · exact absurd (List.mem_append_right t List.mem_cons_self) ht
          · obtain ⟨front, a, hls, hall⟩ := ih (List.cons_ne_nil _ _) hj'
            refine ⟨l :: front, a, by rw [hls, List.cons_append], fun other => ?_⟩
            have hcons : join ['\n'] (l :: (front ++ [a ++ quote.char :: other]))
                = l ++ '\n' :: join ['\n'] (front ++ [a ++ quote.char :: other]) := by
              cases front <;> exact join_cons_cons _ _ _
            rw [List.cons_append, hcons, hall, List.append_assoc, List.cons_append]

/-- **An assignment in quotes is the same whatever ends it** behind its closing quote. -/
theorem exists_clause_append (ha : Assigns line key rest) (hk : IsKey key) (ho : Opens quote rest first)
    (he : Encloses quote (first :: more) value trailing) :
    ∃ front b, line :: more = front ++ [b ++ quote.char :: trailing]
      ∧ ∀ other, '\n' ∉ other → Ends other →
          Clause (front ++ [b ++ quote.char :: other]) (some (key, value)) := by
  obtain ⟨head, rfl, hassigns⟩ := exists_assigns_append ha
  obtain ⟨gap, rfl, hgap⟩ := ho
  obtain ⟨inner, hj, ht, hi⟩ := he
  obtain ⟨front, a, hls, hall⟩ := exists_join_last (List.cons_ne_nil _ _) hj ht
  -- only where the quote closes on the line of its assignment does that line change with what ends it
  cases front with
  | nil =>
      obtain ⟨rfl, rfl⟩ := List.cons.inj hls
      refine ⟨[], head ++ (gap ++ quote.char :: a), by simp, fun other hn hother => ?_⟩
      have hopens : Opens quote (gap ++ quote.char :: (a ++ quote.char :: other)) (a ++ quote.char :: other) :=
        ⟨gap, rfl, hgap⟩
      simpa using Clause.quoted (hassigns _) hk hopens ⟨inner, hall other, hn, hi⟩ hother
  | cons l front =>
      obtain ⟨rfl, rfl⟩ := List.cons.inj hls
      refine ⟨_ :: front, a, rfl, fun other hn hother => ?_⟩
      exact .quoted ha hk ⟨gap, rfl, hgap⟩ ⟨inner, hall other, hn, hi⟩ hother

/-- What is kept of the last line of an assignment in quotes ends with the closing quote and the gap behind it. -/
theorem exists_clause_append_of_cut {front : List (List Char)} {gap kept comment : List Char}
    (ha : Assigns line key rest) (hk : IsKey key) (ho : Opens quote rest first)
    (he : Encloses quote (first :: more) value (gap ++ comment))
    (hls : line :: more = front ++ [kept ++ comment]) :
    ∃ b, kept = b ++ quote.char :: gap
      ∧ ∀ other, '\n' ∉ other → Ends other →
          Clause (front ++ [b ++ quote.char :: other]) (some (key, value)) := by
  obtain ⟨front', b, hls', hall⟩ := exists_clause_append ha hk ho he
  obtain ⟨rfl, hlast⟩ := List.append_inj' (hls.symm.trans hls') rfl
  have hkept : kept ++ comment = b ++ quote.char :: gap ++ comment := by simpa using hlast
  exact ⟨b, List.append_cancel_right hkept, hall⟩

end Quoted

/-! ## Cuts -/

section Cut

variable {front taken : List (List Char)} {kept comment tail : List Char} {e : List Char × List Char}

/-- **Every assignment can be cut** at its comment. -/
theorem exists_cut (h : Clause taken (some e)) :
    ∃ front kept comment, taken = front ++ [kept ++ comment] ∧ Cut front kept comment e := by
  cases h with
  | plain ha hk hp =>
      obtain ⟨hno, text, hb, ht⟩ := hp
      obtain ⟨-, comment, rfl, -⟩ := id hb
      obtain ⟨head, rfl, hassigns⟩ := exists_assigns_append ha
      rw [← List.append_assoc] at ha ⊢
      exact ⟨[], head ++ text, comment, rfl, .plain ha hk hno hb ht⟩
  | @quoted quote line key rest first value trailing more ha hk ho he ht =>
      obtain ⟨front, b, hls, -⟩ := exists_clause_append ha hk ho he
      obtain ⟨gap, comment, rfl, hgap, hc⟩ : ∃ gap comment, trailing = gap ++ comment ∧ AllBlank gap
          ∧ (comment = [] ∨ comment.head? = some '#') := by
        rcases ht with hb | ⟨indent, c, rfl, hi⟩
        · exact ⟨trailing, [], (List.append_nil _).symm, hb, .inl rfl⟩
        · exact ⟨indent, '#' :: c, rfl, hi, .inr rfl⟩
      have hcut : line :: more = front ++ [(b ++ quote.char :: gap) ++ comment] := by
        rw [hls, List.append_assoc, List.cons_append]
      exact ⟨front, b ++ quote.char :: gap, comment, hcut, .quoted ha hk ho he hgap hc hcut⟩

/-- Where a comment is cut off a value without quotes, a blank stands in front of it. -/
theorem blank_of_beforeComment {text : List Char} (h : BeforeComment (text ++ comment) text) (hne : comment ≠ []) :
    comment.head? = some '#' ∧ ¬ EndsSolid text := by
  obtain ⟨-, comment', hc, hend⟩ := h
  obtain rfl := List.append_cancel_left hc
  exact hend.resolve_left hne

/-- **What stands in a comment has no part in the assignment**: it may end with any other comment, or with blanks. -/
theorem clause_of_cut (h : Cut front kept comment e) (hne : comment ≠ []) (ht : Ends tail)
    (hn : '\n' ∉ kept ++ tail) : Clause (front ++ [kept ++ tail]) (some e) := by
  cases h with
  | @plain _ _ key text value ha hk hno hb hv =>
      obtain ⟨head, rfl, hassigns⟩ := exists_assigns_append_of_cut ha
      have hno' (quote : Quote) (first : List Char) : ¬ Opens quote text first :=
        fun h => hno quote _ (h.append comment)
      have hp := isPlain_append hno' hb.1 (blank_of_beforeComment hb hne).2 hv ht
      rw [List.nil_append, List.append_assoc]
      exact .plain (hassigns _) hk hp
  | @quoted quote line key rest first value gap _ _ more _ ha hk ho he hg hc hls =>
      obtain ⟨b, rfl, hall⟩ := exists_clause_append_of_cut ha hk ho he hls
      rw [List.append_assoc, List.cons_append] at hn ⊢
      exact hall (gap ++ tail) (fun hm => hn (by simp [List.mem_append.mp hm])) (ends_append hg ht)

/-- **A comment starts behind a blank or directly behind the closing quote** of its value. -/
theorem comment_start (h : Cut front kept comment e) (hne : comment ≠ []) :
    comment.head? = some '#'
      ∧ ((∃ c, kept.getLast? = some c ∧ isBlank c = true)
        ∨ ∃ quote, InQuotes quote (front ++ [kept ++ comment]) e.1 ∧ kept.getLast? = some quote.char) := by
  cases h with
  | @plain _ _ key text value ha hk hno hb hv =>
      obtain ⟨head, rfl, -⟩ := exists_assigns_append_of_cut ha
      obtain ⟨hsign, hblank⟩ := blank_of_beforeComment hb hne
      refine ⟨hsign, .inl ?_⟩
      simp only [EndsSolid, not_forall, Bool.not_eq_false] at hblank
      obtain ⟨c, hc, hbc⟩ := hblank
      exact ⟨c, by rw [List.getLast?_append, hc, Option.some_or], hbc⟩
  | @quoted quote line key rest first value gap _ _ more _ ha hk ho he hg hc hls =>
      obtain ⟨b, rfl, -⟩ := exists_clause_append_of_cut ha hk ho he hls
      refine ⟨hc.resolve_left hne, ?_⟩
      rcases List.eq_nil_or_concat gap with rfl | ⟨gap, c, rfl⟩
      · exact .inr ⟨quote, ⟨line, more, rest, first, hls.symm, ha, ho⟩, by simp⟩
      · exact .inl ⟨c, by simp [List.getLast?_cons], hg c (by simp)⟩

end Cut

/-! ## Texts -/

section Texts

variable {text other : String} {vars : Variables} {before taken after : List (List Char)} {e : List Char × List Char}

/-- **An assignment may be written otherwise** on as many lines, and the text says the same. -/
theorem read_of_stands (h : Format.read .keyValue text = .ok vars) (hs : Stands text before taken after e)
    {written : List (List Char)} (hc : Clause written (some e)) (hlength : written.length = taken.length)
    (ho : lines other.toList = before ++ (written ++ after)) : Format.read .keyValue other = .ok vars := by
  obtain ⟨hl, ⟨es, hd⟩, htaken⟩ := hs
  have hn : ∀ l ∈ before ++ (taken ++ after), '\n' ∉ l := hl ▸ fun _ => newline_not_mem_of_mem_lines
  have hn' : ∀ l ∈ before ++ (written ++ after), '\n' ∉ l := ho ▸ fun _ => newline_not_mem_of_mem_lines
  -- the reader comes to the assignment on the same line, takes as many lines and goes on at the same one
  have hbefore := entriesFrom_document hd (newline_not_mem_left hn) 1
  have hentries : entries other.toList = entries text.toList := by
    rw [entries, entries, hl, ho, entriesFrom_append (newline_not_mem_left hn) hbefore,
      entriesFrom_append (newline_not_mem_left hn) hbefore,
      entriesFrom_clause htaken (newline_not_mem_left (newline_not_mem_right hn)),
      entriesFrom_clause hc (newline_not_mem_left (newline_not_mem_right hn')), hlength]
  have hmembers : Format.members .keyValue other = .ok vars.members := by
    rw [← Format.members_of_read h, Format.members, Format.members, Format.keyValueMembers,
      Format.keyValueMembers, hentries]
  refine Format.read_of_members (fun hb => ?_) hmembers
  rw [Format.members, Format.keyValueMembers, entries_of_allBlank hb] at hmembers
  exact vars.nonempty (Except.ok.inj hmembers).symm

/-- **What the reader drops behind an assignment.** Every assignment of a text that is read is cut at its comment. The
number sign of the comment directly follows a blank or, where the value stands in quotes, the closing quote; and the
text is read as the same variables whatever comment stands there, with blanks in front or without, or none. So behind
a closing quote no blank is asked for. -/
theorem comment_of_stands (h : Format.read .keyValue text = .ok vars) (hs : Stands text before taken after e) :
    (∃ front kept comment, taken = front ++ [kept ++ comment] ∧ Cut front kept comment e)
      ∧ ∀ front kept comment, taken = front ++ [kept ++ comment] → Cut front kept comment e → comment ≠ [] →
          comment.head? = some '#'
            ∧ ((∃ c, kept.getLast? = some c ∧ isBlank c = true)
              ∨ ∃ quote, InQuotes quote taken e.1 ∧ kept.getLast? = some quote.char)
            ∧ ∀ tail other, Ends tail →
                lines (String.toList other) = before ++ (front ++ [kept ++ tail] ++ after) →
                Format.read .keyValue other = .ok vars := by
  refine ⟨exists_cut hs.clause, ?_⟩
  rintro front kept comment rfl hcut hne
  obtain ⟨hsign, hstart⟩ := comment_start hcut hne
  refine ⟨hsign, hstart, fun tail other ht ho => ?_⟩
  have hlast : kept ++ tail ∈ lines other.toList := by simp [ho]
  have hwritten := clause_of_cut hcut hne ht (newline_not_mem_of_mem_lines hlast)
  exact read_of_stands h hs hwritten (by simp) ho

end Texts

/-- A text with a comment directly behind a closing quote. -/
def touching : String := "B=1 #2\nA='x\ny'#c\nC="

def touchingVariables : Variables :=
  ⟨[("B", .string "1"), ("A", .string "x\ny"), ("C", .string "")], List.cons_ne_nil _ _⟩

theorem read_touching : Format.read .keyValue touching = .ok touchingVariables := by
  have hentries : entries touching.toList = .ok [("B", "1"), ("A", "x\ny"), ("C", "")] := by decide +kernel
  refine Format.read_of_members (fun hb => absurd (hb 'A' (by decide)) (by decide)) ?_
  rw [Format.members, Format.keyValueMembers, hentries]
  rfl

/-- The assignment whose value is followed by the comment. -/
theorem clause_touching :
    Clause ["A='x".toList, "y'#c".toList] (some (['A'], "x\ny".toList))
      ∧ Cut ["A='x".toList] "y'".toList "#c".toList (['A'], "x\ny".toList) := by
  have hkey : IsKey ['A'] := by decide
  have hassigns : Assigns "A='x".toList ['A'] "'x".toList := assigns_of_isKey hkey _
  have hopens : Opens .single "'x".toList ['x'] := ⟨[], rfl, allBlank_nil⟩
  have hinside : Inside .single "x\ny".toList "x\ny".toList :=
    .char (by decide) nofun (.char (by decide) nofun (.char (by decide) nofun (.nil _)))
  have hencloses : Encloses .single [['x'], "y'#c".toList] "x\ny".toList ([] ++ "#c".toList) :=
    ⟨"x\ny".toList, rfl, by decide, hinside⟩
  exact ⟨.quoted hassigns hkey hopens hencloses (.inr ⟨[], ['c'], rfl, allBlank_nil⟩),
    .quoted hassigns hkey hopens hencloses allBlank_nil (.inr rfl) rfl⟩

theorem stands_touching :
    Stands touching ["B=1 #2".toList] ["A='x".toList, "y'#c".toList] ["C=".toList] (['A'], "x\ny".toList) where
  lines_eq := by decide +kernel
  document := by
    have hkey : IsKey ['B'] := by decide
    have hplain : IsPlain "1 #2".toList ['1'] := by
      refine ⟨fun quote first h => ?_, plainValue_eq_iff.mp (by decide)⟩
      have hstart : '1' = quote.char := (List.cons.inj (trimStart_of_opens h)).1
      exact absurd hstart (by cases quote <;> decide)
    exact ⟨_, .cons (.plain (assigns_of_isKey hkey _) hkey hplain) .nil⟩
  clause := clause_touching.1

theorem comment_of_stands_touching :
    Format.read .keyValue touching = .ok touchingVariables
      ∧ Stands touching ["B=1 #2".toList] ["A='x".toList, "y'#c".toList] ["C=".toList] (['A'], "x\ny".toList)
      ∧ Format.read .keyValue "B=1 #2\nA='x\ny' \t # other\nC=" = .ok touchingVariables := by
  obtain ⟨-, hall⟩ := comment_of_stands read_touching stands_touching
  obtain ⟨-, -, hread⟩ := hall _ _ _ rfl clause_touching.2 (by decide)
  refine ⟨read_touching, stands_touching, hread " \t # other".toList _ ?_ (by decide +kernel)⟩
  exact .inr ⟨" \t ".toList, " other".toList, rfl, List.all_eq_true.mp (by decide)⟩

/-- A text is read although a number sign directly follows a closing quote, and the comment there starts behind no
blank. -/
theorem not_forall_comment_after_blank :
    Format.read .keyValue touching = .ok touchingVariables
      ∧ ¬ ∀ text vars, Format.read .keyValue text = .ok vars →
        ∀ before front kept comment after e, Stands text before (front ++ [kept ++ comment]) after e →
          Cut front kept comment e → comment ≠ [] →
          ∃ c, kept.getLast? = some c ∧ isBlank c = true := by
  refine ⟨read_touching, fun h => ?_⟩
  obtain ⟨c, hc, hb⟩ := h touching _ read_touching _ _ _ _ _ _ stands_touching clause_touching.2 (by decide)
  obtain rfl : '\'' = c := Option.some.inj hc
  exact absurd hb (by decide)

end Stencil.KeyValue
