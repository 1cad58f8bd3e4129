import Stencil.KeyValue.Quoted
import Stencil.Proofs.Text.Lines

/-!
# What quotes enclose

The text between two quotes and the value it stands for, as one relation on characters: in double quotes
a backslash and the character after it are taken together, a line end included. The reader looks for the
closing quote line by line, starting afresh on each, and resolves the escapes afterwards. That a
backslash may stand at the end of a line makes no difference: the pair it opens ends with the line.

Main statements: the reader finds exactly the enclosed text that ends on the line of its closing quote
(`find?_of_inside` and `encloses_of_find?`), and finds none exactly when nothing closes the quote
(`not_inside_of_find?_eq_none`).
-/

namespace Stencil.KeyValue

open Stencil.Text

/-- The characters that a letter after a backslash may stand for. -/
inductive Escape : Char → Char → Prop
  | newline : Escape 'n' '\n'
  | return : Escape 'r' '\r'
  | tab : Escape 't' '\t'
  | quote : Escape '"' '"'
  | backslash : Escape '\\' '\\'

/-- A text that may stand between quotes of a kind without closing them, and its value. -/
inductive Inside : Quote → List Char → List Char → Prop
  | nil (quote : Quote) : Inside quote [] []
  | char {quote : Quote} {c : Char} {cs value : List Char} :
      c ≠ quote.char → (quote = .double → c ≠ '\\') → Inside quote cs value →
      Inside quote (c :: cs) (c :: value)
  | escape {d x : Char} {cs value : List Char} :
      Escape d x → Inside .double cs value → Inside .double ('\\' :: d :: cs) (x :: value)
  | other {d : Char} {cs value : List Char} :
      (∀ x, ¬ Escape d x) → Inside .double cs value →
      Inside .double ('\\' :: d :: cs) ('\\' :: d :: value)

/-- The lines of a quoted value, the first one after its opening quote: the value, and what follows
the closing quote on the last of them. -/
def Encloses (quote : Quote) (ls : List (List Char)) (value trailing : List Char) : Prop :=
  ∃ inner, join ['\n'] ls = inner ++ quote.char :: trailing ∧ '\n' ∉ trailing
    ∧ Inside quote inner value

/-! ## Escapes -/

theorem escaped?_eq_some_iff {d x : Char} : escaped? d = some x ↔ Escape d x := by
  constructor
  · intro h
    unfold escaped? at h
    repeat' split at h
    all_goals first | contradiction | (subst d; cases h; constructor)
  · intro h
    cases h <;> rfl

theorem escaped?_eq_none_iff {d : Char} : escaped? d = none ↔ ∀ x, ¬ Escape d x := by
  rw [Option.eq_none_iff_forall_ne_some]
  exact forall_congr' fun x => not_congr escaped?_eq_some_iff

theorem unescape_of_inside {inner value : List Char} (h : Inside .double inner value) :
    unescape inner = value := by
  generalize hq : Quote.double = quote at h
  induction h with
  | nil => rfl
  | char _ hb _ ih => rw [unescape_cons_of_ne (hb hq.symm), ih hq]
  | escape he _ ih => simp [unescape, escaped?_eq_some_iff.mpr he, ih rfl]
  | other he _ ih => simp [unescape, escaped?_eq_none_iff.mpr he, ih rfl]

theorem eq_of_inside_single {inner value : List Char} (h : Inside .single inner value) :
    inner = value := by
  generalize hq : Quote.single = quote at h
  induction h with
  | nil => rfl
  | char _ _ _ ih => rw [ih hq]
  | escape | other => cases hq

/-- **An enclosed text has one value.** -/
theorem value_of_inside {quote : Quote} {inner value : List Char} (h : Inside quote inner value) :
    quote.value inner = value := by
  cases quote with
  | single => exact eq_of_inside_single h
  | double => exact unescape_of_inside h

/-- What is written of a value stands for it in double quotes. -/
theorem inside_encode (value : List Char) : Inside .double (encode value) value := by
  induction value with
  | nil => exact .nil _
  | cons c value ih =>
      rw [encode_cons]
      unfold encodeChar
      split
      · subst c; exact .escape .backslash ih
      · split
        · subst c; exact .escape .quote ih
        · split
          · subst c; exact .escape .newline ih
          · split
            · subst c; exact .escape .return ih
            · split
              · subst c; exact .escape .tab ih
              · rename_i hb hq _ _ _
                exact .char hq (fun _ => hb) ih

/-! ## One line -/

theorem inside_pair {cs value : List Char} (d : Char) (h : Inside .double cs value) :
    ∃ w, Inside .double ('\\' :: d :: cs) w := by
  cases he : escaped? d with
  | some x => exact ⟨_, .escape (escaped?_eq_some_iff.mp he) h⟩
  | none => exact ⟨_, .other (escaped?_eq_none_iff.mp he) h⟩

theorem closing?_quote (quote : Quote) (cs : List Char) :
    closing? quote (quote.char :: cs) = some ([], cs) := by
  cases cs <;> simp [closing?]

theorem closing?_cons {quote : Quote} {c : Char} (hq : c ≠ quote.char)
    (hb : quote = .double → c ≠ '\\') (cs : List Char) :
    closing? quote (c :: cs) = (closing? quote cs).map fun (a, b) => (c :: a, b) := by
  have hn : ¬ (quote = .double ∧ c = '\\') := fun h => hb h.1 h.2
  cases cs with
  | nil => simp [closing?, hq]
  | cons d cs => simp [closing?, hq, hn]

theorem closing?_pair (d : Char) (cs : List Char) :
    closing? .double ('\\' :: d :: cs)
      = (closing? .double cs).map fun (a, b) => ('\\' :: d :: a, b) := by
  simp [closing?, Quote.char]

theorem closing?_of_inside {quote : Quote} {inner value : List Char} (h : Inside quote inner value)
    (trailing : List Char) :
    closing? quote (inner ++ quote.char :: trailing) = some (inner, trailing) := by
  induction h with
  | nil quote => exact closing?_quote quote trailing
  | char hq hb _ ih => rw [List.cons_append, closing?_cons hq hb, ih]; rfl
  | escape _ _ ih | other _ _ ih => rw [List.cons_append, List.cons_append, closing?_pair, ih]; rfl

theorem inside_of_closing? {quote : Quote} {line inner trailing : List Char}
    (h : closing? quote line = some (inner, trailing)) :
    line = inner ++ quote.char :: trailing ∧ ∃ value, Inside quote inner value := by
  fun_induction closing? quote line generalizing inner with
  | case1 => contradiction
  | case2 =>
      simp only [Option.some.injEq, Prod.mk.injEq] at h
      obtain ⟨rfl, rfl⟩ := h
      exact ⟨rfl, [], .nil quote⟩
  | case3 => contradiction
  | case4 d cs =>
      simp only [Option.some.injEq, Prod.mk.injEq] at h
      obtain ⟨rfl, rfl⟩ := h
      exact ⟨rfl, [], .nil quote⟩
  | case5 c d cs hq hb ih =>
      obtain ⟨⟨a, b⟩, hab, he⟩ := Option.map_eq_some_iff.mp h
      simp only [Prod.mk.injEq] at he
      obtain ⟨rfl, rfl⟩ := he
      obtain ⟨rfl, rfl⟩ := hb
      obtain ⟨hl, value, hv⟩ := ih hab
      exact ⟨by rw [hl]; rfl, inside_pair d hv⟩
  | case6 c d cs hq hb ih =>
      obtain ⟨⟨a, b⟩, hab, he⟩ := Option.map_eq_some_iff.mp h
      simp only [Prod.mk.injEq] at he
      obtain ⟨rfl, rfl⟩ := he
      obtain ⟨hl, value, hv⟩ := ih hab
      exact ⟨by rw [hl]; rfl, c :: value, .char hq (fun hd hc => hb ⟨hd, hc⟩) hv⟩

/-- A line in which nothing closes a quote stays inside, together with its line end. -/
theorem inside_append_newline {quote : Quote} {line rest value : List Char}
    (h : closing? quote line = none) (hr : Inside quote rest value) :
    ∃ w, Inside quote (line ++ '\n' :: rest) w := by
  have hnl : Inside quote ('\n' :: rest) ('\n' :: value) :=
    .char (by cases quote <;> decide) (fun _ => by decide) hr
  fun_induction closing? quote line with
  | case1 => exact ⟨_, hnl⟩
  | case2 => contradiction
  | case3 c hq =>
      by_cases hb : quote = .double ∧ c = '\\'
      · obtain ⟨rfl, rfl⟩ := hb
        exact inside_pair '\n' hr
      · exact ⟨_, .char hq (fun hd hc => hb ⟨hd, hc⟩) hnl⟩
  | case4 => contradiction
  | case5 c d cs hq hb ih =>
      obtain ⟨rfl, rfl⟩ := hb
      obtain ⟨w, hw⟩ := ih (Option.map_eq_none_iff.mp h)
      exact inside_pair d hw
  | case6 c d cs hq hb ih =>
      obtain ⟨w, hw⟩ := ih (Option.map_eq_none_iff.mp h)
      exact ⟨c :: w, .char hq (fun hd hc => hb ⟨hd, hc⟩) hw⟩

/-- Of an enclosed text with a line end, the line before has no closing quote, and the text after is
enclosed by itself. -/
theorem closing?_of_inside_append {quote : Quote} {line rest value : List Char}
    (hn : '\n' ∉ line) (h : Inside quote (line ++ '\n' :: rest) value) :
    closing? quote line = none ∧ ∃ w, Inside quote rest w := by
  generalize he : line ++ '\n' :: rest = text at h
  induction h generalizing line with
  | nil => simp at he
  | @char quote c cs value hq hb h ih =>
      cases line with
      | nil =>
          obtain ⟨-, rfl⟩ := List.cons.inj he
          exact ⟨rfl, value, h⟩
      | cons d line =>
          obtain ⟨rfl, hcs⟩ := List.cons.inj he
          obtain ⟨hc, hw⟩ := ih (fun hm => hn (List.mem_cons_of_mem _ hm)) hcs
          exact ⟨by rw [closing?_cons hq hb, hc]; rfl, hw⟩
  | @escape d x cs value _ h ih | @other d cs value _ h ih =>
      -- If the backslash is the last character of the line, it is the line end that is escaped.
      match line, he with
      | [], he => cases he
      | [c], he =>
          obtain ⟨rfl, hcs⟩ := List.cons.inj he
          obtain ⟨rfl, rfl⟩ := List.cons.inj hcs
          exact ⟨rfl, value, h⟩
      | c :: e :: line, he =>
          obtain ⟨rfl, hcs⟩ := List.cons.inj he
          obtain ⟨rfl, hds⟩ := List.cons.inj hcs
          have hn' : '\n' ∉ line := fun hm => hn (List.mem_cons_of_mem _ (List.mem_cons_of_mem _ hm))
          obtain ⟨hc, hw⟩ := ih hn' hds
          exact ⟨by rw [closing?_pair, hc]; rfl, hw⟩

/-! ## Several lines -/

theorem char_ne_newline (quote : Quote) : quote.char ≠ '\n' := by cases quote <;> decide

/-- A closing quote in a text with a line end stands either in the line before or in the text after. -/
theorem closing_cases {quote : Quote} {line after inner trailing : List Char}
    (h : line ++ '\n' :: after = inner ++ quote.char :: trailing) :
    (∃ t, line = inner ++ quote.char :: t ∧ trailing = t ++ '\n' :: after)
      ∨ ∃ more, inner = line ++ '\n' :: more ∧ after = more ++ quote.char :: trailing := by
  rcases List.append_eq_append_iff.mp h with ⟨more, rfl, hm⟩ | ⟨t, rfl, ht⟩
  · cases more with
    | nil => exact absurd (List.cons.inj hm).1.symm (char_ne_newline quote)
    | cons c more =>
        obtain ⟨rfl, rfl⟩ := List.cons.inj hm
        exact .inr ⟨more, rfl, rfl⟩
  · cases t with
    | nil => exact absurd (List.cons.inj ht).1 (char_ne_newline quote)
    | cons c t =>
        obtain ⟨rfl, rfl⟩ := List.cons.inj ht
        exact .inl ⟨t, rfl, rfl⟩

/-- **An enclosed text is found** where it ends on the line of its closing quote. -/
theorem find?_of_inside {quote : Quote} {first inner value trailing : List Char}
    {more : List (List Char)} (hn : ∀ line ∈ first :: more, '\n' ∉ line)
    (hj : join ['\n'] (first :: more) = inner ++ quote.char :: trailing) (ht : '\n' ∉ trailing)
    (hi : Inside quote inner value) (rest : List (List Char)) :
    find? quote first (more ++ rest) = some ⟨inner, trailing, more.length⟩ := by
  induction more generalizing first inner value with
  | nil =>
      have hf : first = inner ++ quote.char :: trailing := hj
      rw [find?.eq_def, hf, closing?_of_inside hi]
      rfl
  | cons next more ih =>
      rw [join_cons_cons] at hj
      rcases closing_cases hj with ⟨t, -, rfl⟩ | ⟨inner', rfl, hj'⟩
      · exact absurd (List.mem_append_right t List.mem_cons_self) ht
      · obtain ⟨hc, w, hw⟩ := closing?_of_inside_append (hn first List.mem_cons_self) hi
        have hf := ih (fun line hl => hn line (List.mem_cons_of_mem _ hl)) hj' hw
        rw [List.cons_append, find?.eq_def, hc]
        simp only [hf, Option.map_some, List.length_cons]

/-- What closes in a line without a line end is enclosed in that line. -/
theorem enclosed_of_closing? {quote : Quote} {line inner trailing : List Char} (hn : '\n' ∉ line)
    (h : closing? quote line = some (inner, trailing)) :
    line = inner ++ quote.char :: trailing ∧ '\n' ∉ trailing ∧ ∃ value, Inside quote inner value := by
  obtain ⟨rfl, hi⟩ := inside_of_closing? h
  exact ⟨rfl, fun hm => hn (List.mem_append_right _ (List.mem_cons_of_mem _ hm)), hi⟩

/-- **What is found is enclosed** and ends on the line of its closing quote. -/
theorem encloses_of_find? {quote : Quote} {first : List Char} {following : List (List Char)}
    {found : Found} (hn : ∀ line ∈ first :: following, '\n' ∉ line)
    (h : find? quote first following = some found) :
    ∃ more rest, following = more ++ rest ∧ more.length = found.used
      ∧ Encloses quote (first :: more) (quote.value found.inner) found.trailing := by
  -- The value is left open for the induction. There is but one for each inner text.
  suffices hs : ∃ more rest, following = more ++ rest ∧ more.length = found.used
      ∧ join ['\n'] (first :: more) = found.inner ++ quote.char :: found.trailing
      ∧ '\n' ∉ found.trailing ∧ ∃ value, Inside quote found.inner value by
    obtain ⟨more, rest, hf, hu, hj, ht, value, hi⟩ := hs
    exact ⟨more, rest, hf, hu, found.inner, hj, ht, value_of_inside hi ▸ hi⟩
  induction following generalizing first found with
  | nil =>
      rw [find?.eq_def] at h
      split at h
      · rename_i inner trailing hc
        cases h
        exact ⟨[], [], rfl, rfl, enclosed_of_closing? (hn first List.mem_cons_self) hc⟩
      · contradiction
  | cons next following ih =>
      rw [find?.eq_def] at h
      split at h
      · rename_i inner trailing hc
        cases h
        have he := enclosed_of_closing? (hn first List.mem_cons_self) hc
        exact ⟨[], next :: following, rfl, rfl, he⟩
      · rename_i hc
        obtain ⟨f, hf, rfl⟩ := Option.map_eq_some_iff.mp h
        obtain ⟨more, rest, rfl, hu, hj, ht, value, hi⟩ :=
          ih (fun line hl => hn line (List.mem_cons_of_mem _ hl)) hf
        refine ⟨next :: more, rest, rfl, by simp [hu], ?_, ht, inside_append_newline hc hi⟩
        rw [join_cons_cons, hj]
        simp

/-- **Nothing closes a quote** for which nothing is found. -/
theorem not_inside_of_find?_eq_none {quote : Quote} {first : List Char}
    {following : List (List Char)} (hn : ∀ line ∈ first :: following, '\n' ∉ line)
    (h : find? quote first following = none) {inner trailing value : List Char}
    (hj : join ['\n'] (first :: following) = inner ++ quote.char :: trailing) :
    ¬ Inside quote inner value := by
  intro hi
  induction following generalizing first inner value with
  | nil =>
      have hf : first = inner ++ quote.char :: trailing := hj
      rw [find?.eq_def, hf, closing?_of_inside hi] at h
      contradiction
  | cons next following ih =>
      rw [find?.eq_def] at h
      split at h
      · contradiction
      · rename_i hc
        rw [join_cons_cons] at hj
        rcases closing_cases hj with ⟨t, rfl, -⟩ | ⟨inner', rfl, hj'⟩
        · rw [closing?_of_inside hi] at hc
          contradiction
        · obtain ⟨-, w, hw⟩ := closing?_of_inside_append (hn first List.mem_cons_self) hi
          exact ih (fun line hl => hn line (List.mem_cons_of_mem _ hl))
            (Option.map_eq_none_iff.mp h) hj' hw

end Stencil.KeyValue
