import Stencil.Proofs.KeyValue.Grammar

/-!
# What the reader takes a line to say

The parts of a line, each read as the grammar says: the key before the first equals sign, the word in
front of it, and the value behind, which may be cut by a comment. A line is then nothing, an assignment
or a fault.

Main statements: `statement_of_opens`, `statement_of_isPlain`, `statement_of_noAssignment` and
`statement_of_invalidKey`.
-/

namespace Stencil.KeyValue

open Stencil.Text

/-! ## Parts of a line -/

theorem isKeyStart_iff {c : Char} : isKeyStart c = true ↔ KeyHead c := by
  have hu : c.isUpper = true ↔ 'A' ≤ c ∧ c ≤ 'Z' := decide_eq_true_iff
  have hl : c.isLower = true ↔ 'a' ≤ c ∧ c ≤ 'z' := by
    show (decide ('a' ≤ c) && decide (c ≤ 'z')) = true ↔ 'a' ≤ c ∧ c ≤ 'z'
    rw [Bool.and_eq_true, decide_eq_true_eq, decide_eq_true_eq]
  show (c.isUpper || c.isLower || c == '_') = true ↔ KeyHead c
  rw [Bool.or_eq_true, Bool.or_eq_true, hu, hl, beq_iff_eq, KeyHead, or_assoc]

theorem isKeyRest_iff {c : Char} : isKeyRest c = true ↔ KeyTail c := by
  have hd : c.isDigit = true ↔ '0' ≤ c ∧ c ≤ '9' := by
    simp only [Char.isDigit, Char.le_def, Bool.and_eq_true, decide_eq_true_eq, ge_iff_le]
  have hs : c.isAlpha = true ∨ c = '_' ↔ KeyHead c := by
    rw [← isKeyStart_iff, isKeyStart, Bool.or_eq_true, beq_iff_eq]
  simp only [isKeyRest, KeyTail, Char.isAlphanum, Bool.or_eq_true, beq_iff_eq, ← hs, ← hd]
  grind

theorem isKey_iff {cs : List Char} : isKey cs = true ↔ IsKey cs := by
  cases cs with
  | nil => simp [isKey, IsKey]
  | cons c cs =>
      simp only [isKey, Bool.and_eq_true, List.all_eq_true, isKeyStart_iff, isKeyRest_iff]
      constructor
      · exact fun h => ⟨c, cs, rfl, h⟩
      · rintro ⟨d, rest, he, h⟩
        obtain ⟨rfl, rfl⟩ := List.cons.inj he
        exact h

instance : DecidablePred IsKey := fun _ => decidable_of_iff _ isKey_iff

theorem splitAssignment?_eq_some_iff {cs before rest : List Char} :
    splitAssignment? cs = some (before, rest) ↔ cs = before ++ '=' :: rest ∧ '=' ∉ before := by
  induction cs generalizing before with
  | nil => simp [splitAssignment?]
  | cons c cs ih =>
      by_cases hc : c = '='
      · subst hc
        constructor
        · intro h
          simp only [splitAssignment?, if_true, Option.some.injEq, Prod.mk.injEq] at h
          obtain ⟨rfl, rfl⟩ := h
          exact ⟨rfl, List.not_mem_nil⟩
        · rintro ⟨he, hn⟩
          cases before with
          | nil =>
              obtain ⟨-, rfl⟩ := List.cons.inj he
              simp [splitAssignment?]
          | cons d before =>
              obtain ⟨rfl, -⟩ := List.cons.inj he
              exact absurd List.mem_cons_self hn
      · simp only [splitAssignment?, if_neg hc, Option.map_eq_some_iff]
        constructor
        · rintro ⟨⟨a, b⟩, hab, he⟩
          simp only [Prod.mk.injEq] at he
          obtain ⟨rfl, rfl⟩ := he
          obtain ⟨rfl, hn⟩ := ih.mp hab
          exact ⟨rfl, by simp [hn, Ne.symm hc]⟩
        · rintro ⟨he, hn⟩
          cases before with
          | nil => exact absurd (List.cons.inj he).1 hc
          | cons d before =>
              obtain ⟨rfl, rfl⟩ := List.cons.inj he
              exact ⟨(before, rest), ih.mpr ⟨rfl, fun h => hn (List.mem_cons_of_mem _ h)⟩, rfl⟩

theorem splitAssignment?_eq_none_iff {cs : List Char} :
    splitAssignment? cs = none ↔ '=' ∉ cs := by
  induction cs with
  | nil => simp [splitAssignment?]
  | cons c cs ih =>
      by_cases hc : c = '='
      · simp [splitAssignment?, hc]
      · simp [splitAssignment?, hc, ih, Ne.symm hc]

/-! ## The word in front -/

theorem dropExport_exportWord (text : List Char) :
    dropExport (exportWord ++ text) = trimStart text := rfl

theorem dropExport_of_unmarked {text : List Char} (h : ¬ exportWord <+: text) :
    dropExport text = text := by
  unfold dropExport
  split
  · rename_i rest
    exact absurd ⟨rest, rfl⟩ h
  · rfl

/-- What the reader looks for an equals sign in is what the line says, but for blanks in front. -/
theorem dropExport_of_said {line text : List Char} (h : Says line text) :
    dropExport (trimStart line) = trimStart text := by
  cases h with
  | bare hi hs hw =>
      rw [trimStart_append hi hs, dropExport_of_unmarked hw, trimStart_of_startsSolid hs]
  | @exported indent text hi =>
      have hs : StartsSolid (exportWord ++ text) := startsSolid_cons.mpr (by decide)
      rw [trimStart_append hi hs, dropExport_exportWord]

theorem exists_said (line : List Char) : ∃ text, Says line text := by
  obtain ⟨indent, hi, he⟩ := exists_append_trimStart line
  by_cases hw : exportWord <+: trimStart line
  · obtain ⟨text, ht⟩ := hw
    exact ⟨text, by rw [he, ← ht]; exact .exported hi⟩
  · refine ⟨trimStart line, ?_⟩
    generalize hs : trimStart line = text at *
    rw [he]
    exact .bare hi (hs ▸ startsSolid_trimStart line) hw

/-! ## The value on a line -/

theorem ofChar?_char (quote : Quote) : Quote.ofChar? quote.char = some quote := by
  cases quote <;> decide

theorem char_of_ofChar? {c : Char} {quote : Quote} (h : Quote.ofChar? c = some quote) :
    c = quote.char := by
  unfold Quote.ofChar? at h
  repeat' split at h
  all_goals first | contradiction | (cases h; assumption)

theorem isBlank_char (quote : Quote) : isBlank quote.char = false := by cases quote <;> decide

theorem trimStart_of_opens {quote : Quote} {rest first : List Char} (h : Opens quote rest first) :
    trimStart rest = quote.char :: first := by
  obtain ⟨gap, rfl, hg⟩ := h
  exact trimStart_append hg (startsSolid_cons.mpr (isBlank_char quote))

theorem opens_of_trimStart {quote : Quote} {rest first : List Char}
    (h : trimStart rest = quote.char :: first) : Opens quote rest first := by
  obtain ⟨gap, hg, he⟩ := exists_append_trimStart rest
  exact ⟨gap, by rw [← h]; exact he, hg⟩

/-- Whether a text ends with a blank; the flag tells whether a blank stands before the text. -/
def endsBlank (afterBlank : Bool) (text : List Char) : Bool :=
  (text.getLast?.map isBlank).getD afterBlank

/-- No number sign of a text directly follows a blank. -/
def Clear (afterBlank : Bool) (text : List Char) : Prop :=
  ∀ a b, text = a ++ '#' :: b → endsBlank afterBlank a = false

theorem endsBlank_cons (afterBlank : Bool) (c : Char) (cs : List Char) :
    endsBlank afterBlank (c :: cs) = endsBlank (isBlank c) cs := by
  cases cs with
  | nil => rfl
  | cons d cs => simp [endsBlank, List.getLast?_cons]

theorem endsSolid_iff {text : List Char} : EndsSolid text ↔ endsBlank false text = false := by
  cases h : text.getLast? <;> simp [EndsSolid, endsBlank, h]

theorem clear_cons {afterBlank : Bool} {c : Char} {cs : List Char} :
    Clear afterBlank (c :: cs) ↔ (c = '#' → afterBlank = false) ∧ Clear (isBlank c) cs := by
  constructor
  · intro h
    refine ⟨fun hc => h [] cs (by rw [hc]; rfl), fun a b hab => ?_⟩
    rw [← endsBlank_cons afterBlank]
    exact h (c :: a) b (by rw [hab]; rfl)
  · rintro ⟨hc, hcs⟩ a b hab
    cases a with
    | nil => exact hc (List.cons.inj hab).1
    | cons d a =>
        obtain ⟨rfl, rfl⟩ := List.cons.inj hab
        rw [endsBlank_cons]
        exact hcs a b rfl

theorem beforeComment_append {afterBlank : Bool} {text comment : List Char}
    (ht : Clear afterBlank text)
    (hc : comment = [] ∨ comment.head? = some '#' ∧ endsBlank afterBlank text = true) :
    beforeComment afterBlank (text ++ comment) = text := by
  induction text generalizing afterBlank with
  | nil =>
      rcases hc with rfl | ⟨hh, hb⟩
      · rfl
      · obtain ⟨tail, rfl⟩ := List.head?_eq_some_iff.mp hh
        exact if_pos ⟨rfl, hb⟩
  | cons c text ih =>
      obtain ⟨hs, ht⟩ := clear_cons.mp ht
      have hn : ¬ (c = '#' ∧ afterBlank = true) := fun h => by simp [hs h.1] at h
      rw [endsBlank_cons] at hc
      rw [List.cons_append, beforeComment, if_neg hn, ih ht hc]

theorem exists_comment (afterBlank : Bool) (rest : List Char) :
    Clear afterBlank (beforeComment afterBlank rest)
      ∧ ∃ comment, rest = beforeComment afterBlank rest ++ comment
        ∧ (comment = [] ∨ comment.head? = some '#'
          ∧ endsBlank afterBlank (beforeComment afterBlank rest) = true) := by
  induction rest generalizing afterBlank with
  | nil => exact ⟨fun a b h => by simp [beforeComment] at h, [], rfl, .inl rfl⟩
  | cons c rest ih =>
      unfold beforeComment
      split
      · rename_i hc
        exact ⟨fun a b h => by simp at h, c :: rest, rfl, .inr ⟨by simp [hc.1], hc.2⟩⟩
      · rename_i hc
        obtain ⟨ht, comment, he, hcm⟩ := ih (isBlank c)
        refine ⟨clear_cons.mpr ⟨fun h => by simpa [h] using hc, ht⟩, comment, ?_, ?_⟩
        · rw [List.cons_append, ← he]
        · rwa [endsBlank_cons]

/-- **The reader cuts a value where its comment starts.** -/
theorem beforeComment_eq_iff {rest text : List Char} :
    beforeComment false rest = text ↔ BeforeComment rest text := by
  have hs : ∀ a, EndsSolid a ↔ endsBlank false a = false := fun a => endsSolid_iff
  simp only [BeforeComment, hs, Bool.not_eq_false]
  constructor
  · rintro rfl
    exact exists_comment false rest
  · rintro ⟨ht, comment, rfl, hc⟩
    exact beforeComment_append ht hc

theorem plainValue_eq_iff {rest value : List Char} :
    plainValue rest = value ↔ ∃ text, BeforeComment rest text ∧ IsTrim text value := by
  rw [plainValue, trim_eq_iff]
  constructor
  · exact fun h => ⟨_, beforeComment_eq_iff.mp rfl, h⟩
  · rintro ⟨text, hb, ht⟩
    rwa [beforeComment_eq_iff.mpr hb]

/-! ## One line -/

theorem statement_of_allBlank {line : List Char} (h : AllBlank line) :
    statement line = .ok .nothing := by
  rw [statement, trimStart_eq_nil_iff.mpr h]

theorem trimStart_of_isComment {line : List Char} (h : IsComment line) :
    ∃ text, trimStart line = '#' :: text := by
  obtain ⟨indent, text, rfl, hi⟩ := h
  exact ⟨text, trimStart_append hi (startsSolid_cons.mpr (by decide))⟩

theorem isComment_of_trimStart {line text : List Char} (h : trimStart line = '#' :: text) :
    IsComment line := by
  obtain ⟨indent, hi, he⟩ := exists_append_trimStart line
  exact ⟨indent, text, by rw [← h]; exact he, hi⟩

theorem statement_of_isComment {line : List Char} (h : IsComment line) :
    statement line = .ok .nothing := by
  obtain ⟨text, ht⟩ := trimStart_of_isComment h
  rw [statement, ht]
  exact if_pos rfl

/-- A line that is neither blank nor a comment is read by what it says. -/
theorem statement_of_said {line text : List Char} (hb : ¬ AllBlank line) (hc : ¬ IsComment line)
    (h : Says line text) :
    statement line
      = match splitAssignment? (trimStart text) with
        | none => .error .noAssignment
        | some (before, rest) => assignment before rest := by
  rw [← dropExport_of_said h, statement]
  cases ht : trimStart line with
  | nil => exact absurd (trimStart_eq_nil_iff.mp ht) hb
  | cons c cs =>
      have hne : c ≠ '#' := fun he => hc (isComment_of_trimStart (he ▸ ht))
      exact if_neg hne

theorem mem_of_said {line text : List Char} (h : Says line text) {c : Char} (hc : c ∈ text) :
    c ∈ line := by
  cases h with
  | bare => exact List.mem_append_right _ hc
  | exported => exact List.mem_append_right _ (List.mem_append_right _ hc)

theorem statement_of_assigns {line key rest : List Char} (hc : ¬ IsComment line)
    (h : Assigns line key rest) :
    ∃ before, trim before = key ∧ statement line = assignment before rest := by
  obtain ⟨before, hs, hn, hk⟩ := h
  have hb : ¬ AllBlank line := fun hb =>
    absurd (hb '=' (mem_of_said hs (List.mem_append_right _ List.mem_cons_self))) (by decide)
  have hm : '=' ∉ trimStart before := fun hm => hn ((trimStart_isSuffixOf before).subset hm)
  have ha : splitAssignment? (trimStart (before ++ '=' :: rest)) = some (trimStart before, rest) := by
    rw [trimStart_append_cons (by decide)]
    exact splitAssignment?_eq_some_iff.mpr ⟨rfl, hm⟩
  refine ⟨trimStart before, ?_, ?_⟩
  · rw [trim_trimStart, trim_eq_iff.mpr hk]
  · rw [statement_of_said hb hc hs, ha]

theorem statement_of_noAssignment {line text : List Char} (hb : ¬ AllBlank line)
    (hc : ¬ IsComment line) (hs : Says line text) (hn : '=' ∉ text) :
    statement line = .error .noAssignment := by
  have hm : '=' ∉ trimStart text := fun hm => hn ((trimStart_isSuffixOf text).subset hm)
  rw [statement_of_said hb hc hs, splitAssignment?_eq_none_iff.mpr hm]

/-- A key keeps the line that it stands on from being a comment. -/
theorem not_isComment_of_assigns {line key rest : List Char} (h : Assigns line key rest)
    (hk : IsKey key) : ¬ IsComment line := by
  intro hc
  obtain ⟨text, ht⟩ := trimStart_of_isComment hc
  obtain ⟨before, hs, -, lead, trail, rfl, hl, -, hsolid, -⟩ := h
  obtain ⟨c, cs, rfl, hhead, -⟩ := hk
  have hkey : trimStart (lead ++ c :: cs ++ trail ++ '=' :: rest)
      = c :: (cs ++ trail ++ '=' :: rest) := by
    simp only [List.append_assoc, List.cons_append]
    exact trimStart_append hl (startsSolid_cons.mpr (startsSolid_cons.mp hsolid))
  have hsays : '#' :: text = c :: (cs ++ trail ++ '=' :: rest) := by
    rw [← hkey, ← dropExport_of_said hs, ht]
    rfl
  have hstart : isKeyStart '#' = true := (List.cons.inj hsays).1 ▸ isKeyStart_iff.mpr hhead
  exact absurd hstart (by decide)

/-! ## One assignment -/

theorem assignment_invalidKey {before rest : List Char} (h : ¬ IsKey (trim before)) :
    assignment before rest = .error (.invalidKey (String.ofList (trim before))) :=
  if_neg fun hk => h (isKey_iff.mp hk)

theorem assignment_quoted {quote : Quote} {before rest first : List Char}
    (hk : IsKey (trim before)) (h : Opens quote rest first) :
    assignment before rest = .ok (.quoted (trim before) quote first) := by
  rw [assignment, trimStart_of_opens h]
  simp only [isKey_iff.mpr hk, if_true, ofChar?_char]

theorem assignment_plain {before rest value : List Char} (hk : IsKey (trim before))
    (h : IsPlain rest value) :
    assignment before rest = .ok (.plain (trim before) value) := by
  obtain ⟨hn, hv⟩ := h
  rw [assignment, ← plainValue_eq_iff.mpr hv]
  simp only [isKey_iff.mpr hk, if_true]
  cases ht : trimStart rest with
  | nil => rfl
  | cons q first =>
      cases hq : Quote.ofChar? q with
      | none => simp only [hq]
      | some quote => exact absurd (opens_of_trimStart (char_of_ofChar? hq ▸ ht)) (hn quote first)

theorem statement_of_opens {quote : Quote} {line key rest first : List Char}
    (ha : Assigns line key rest) (hk : IsKey key) (ho : Opens quote rest first) :
    statement line = .ok (.quoted key quote first) := by
  obtain ⟨before, rfl, hs⟩ := statement_of_assigns (not_isComment_of_assigns ha hk) ha
  rw [hs, assignment_quoted hk ho]

theorem statement_of_isPlain {line key rest value : List Char} (ha : Assigns line key rest)
    (hk : IsKey key) (hp : IsPlain rest value) : statement line = .ok (.plain key value) := by
  obtain ⟨before, rfl, hs⟩ := statement_of_assigns (not_isComment_of_assigns ha hk) ha
  rw [hs, assignment_plain hk hp]

theorem statement_of_invalidKey {line key rest : List Char} (hc : ¬ IsComment line)
    (ha : Assigns line key rest) (hk : ¬ IsKey key) :
    statement line = .error (.invalidKey (String.ofList key)) := by
  obtain ⟨before, rfl, hs⟩ := statement_of_assigns hc ha
  rw [hs, assignment_invalidKey hk]

end Stencil.KeyValue
