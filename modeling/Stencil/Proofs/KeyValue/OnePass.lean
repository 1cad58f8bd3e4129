import Mathlib.Data.List.TakeWhile
import Stencil.Proofs.KeyValue.Reading

/-!
# A value in double quotes in one pass

The reader looks for the closing quote line by line, starting afresh on each, and resolves the escapes afterwards in
the lines joined. One pass over the lines joined takes a backslash together with the character behind it, a newline
included, and stops at the first quote that is left. A backslash at the end of a line is where the two could see
different pairs: the search forgets it, and the pass goes on with the newline as the second of the pair. Either way the
next line starts afresh.

Both are tied to the enclosed texts (`Inside`): the reader by `encloses_of_find?` and
`not_inside_of_find?_eq_none`, the pass here by `decode?_eq_some_iff`.

Main statements: `decode?_eq_some_iff` and `entriesFrom_eq_resumed_decoded`.
-/

namespace Stencil.KeyValue

open Stencil.Text

/-! ## The reader -/

/-- What the reader makes of a value in quotes: the value, and how many further lines it takes. -/
def readQuoted (quote : Quote) (first : List Char) (following : List (List Char)) :
    Except Fault (List Char × Nat) :=
  match find? quote first following with
  | none => .error .unterminated
  | some found =>
      if endsValue found.trailing then .ok (quote.value found.inner, found.used)
      else .error (.textAfterQuote (String.ofList (trim found.trailing)))

/-- How reading goes on behind a value in quotes, whose assignment starts on the line with the given number. -/
def resumed (number : Nat) (key : List Char) (following : List (List Char)) :
    Except Fault (List Char × Nat) → Except LineFault (List Entry)
  | .error fault => .error ⟨number, fault⟩
  | .ok (value, used) =>
      (entriesFrom (number + 1 + used) (following.drop used)).map
        ((String.ofList key, String.ofList value) :: ·)

/-- An assignment in quotes is read by its value, and reading goes on behind the lines that the value takes. -/
theorem entriesFrom_of_quoted {line key first : List Char} {quote : Quote}
    (h : statement line = .ok (.quoted key quote first)) (number : Nat) (following : List (List Char)) :
    entriesFrom number (line :: following)
      = resumed number key following (readQuoted quote first following) := by
  rw [entriesFrom, h, readQuoted]
  cases hf : find? quote first following with
  | none => simp only [hf, resumed]
  | some found =>
      simp only [hf]
      split <;> rfl

/-! ## The pass -/

variable {cs inner value rest : List Char}

theorem decode?_pair (d : Char) (cs : List Char) :
    decode? ('\\' :: d :: cs) = (decode? cs).map fun (value, rest) =>
      (match escaped? d with
        | some x => x :: value
        | none => '\\' :: d :: value,
       rest) := by
  rw [decode?.eq_def]
  exact (if_neg (by decide)).trans (if_pos rfl)

theorem decode?_of_inside (h : Inside .double inner value) (rest : List Char) :
    decode? (inner ++ '"' :: rest) = some (value, rest) := by
  generalize hq : Quote.double = quote at h
  induction h with
  | nil => exact decode?_quote rest
  | char hc hb _ ih =>
      subst hq
      rw [List.cons_append, decode?_cons_of_ne hc (hb rfl), ih rfl]
      rfl
  | escape he _ ih =>
      rw [List.cons_append, List.cons_append, decode?_pair, escaped?_eq_some_iff.mpr he, ih rfl]
      rfl
  | other he _ ih =>
      rw [List.cons_append, List.cons_append, decode?_pair, escaped?_eq_none_iff.mpr he, ih rfl]
      rfl

theorem inside_of_decode? (h : decode? cs = some (value, rest)) :
    ∃ inner, cs = inner ++ '"' :: rest ∧ Inside .double inner value := by
  fun_induction decode? cs generalizing value with
  | case1 => contradiction
  | case2 cs =>
      cases h
      exact ⟨[], rfl, .nil _⟩
  | case3 => contradiction
  | case4 d cs hq ih =>
      obtain ⟨⟨v, r⟩, hv, he⟩ := Option.map_eq_some_iff.mp h
      obtain ⟨rfl, rfl⟩ := Prod.mk.inj he
      obtain ⟨inner, rfl, hi⟩ := ih hv
      cases hd : escaped? d with
      | some x => exact ⟨'\\' :: d :: inner, rfl, .escape (escaped?_eq_some_iff.mp hd) hi⟩
      | none => exact ⟨'\\' :: d :: inner, rfl, .other (escaped?_eq_none_iff.mp hd) hi⟩
  | case5 c cs hq hb ih =>
      obtain ⟨⟨v, r⟩, hv, he⟩ := Option.map_eq_some_iff.mp h
      cases he
      obtain ⟨inner, rfl, hi⟩ := ih hv
      exact ⟨c :: inner, rfl, .char hq (fun _ => hb) hi⟩

/-- **The pass reads the enclosed text** in front of the first quote that closes it. -/
theorem decode?_eq_some_iff :
    decode? cs = some (value, rest) ↔ ∃ inner, cs = inner ++ '"' :: rest ∧ Inside .double inner value := by
  refine ⟨inside_of_decode?, ?_⟩
  rintro ⟨inner, rfl, hi⟩
  exact decode?_of_inside hi rest

/-- What one pass makes of the lines of a value in double quotes: the value, and how many line ends it has passed.
What follows the closing quote on its line has to end the value. -/
def decoded (text : List Char) : Except Fault (List Char × Nat) :=
  match decode? text with
  | none => .error .unterminated
  | some (value, rest) =>
      let trailing := rest.takeWhile (· ≠ '\n')
      if endsValue trailing then .ok (value, text.count '\n' - rest.count '\n')
      else .error (.textAfterQuote (String.ofList (trim trailing)))

/-! ## Lines joined -/

/-- Lines that are joined have a newline in front of each but the first. -/
theorem count_flatMap_newline {following : List (List Char)} (hn : ∀ l ∈ following, '\n' ∉ l) :
    (following.flatMap ('\n' :: ·)).count '\n' = following.length := by
  induction following with
  | nil => rfl
  | cons next following ih =>
      obtain ⟨hnext, hrest⟩ := List.forall_mem_cons.mp hn
      rw [List.flatMap_cons, List.count_append, ih hrest, List.count_cons_self,
        List.count_eq_zero.mpr hnext, List.length_cons]
      omega

/-- What stands in front of further lines is the line that they follow. -/
theorem takeWhile_append_lines {line : List Char} (hn : '\n' ∉ line) (following : List (List Char)) :
    (line ++ following.flatMap ('\n' :: ·)).takeWhile (· ≠ '\n') = line := by
  have hline : ∀ c ∈ line, decide (c ≠ '\n') = true := fun c hc =>
    decide_eq_true fun he => hn (he ▸ hc)
  rw [List.takeWhile_append_of_pos hline]
  cases following with
  | nil => simp
  | cons next following => simp

/-- What is found line by line is what one pass finds. -/
theorem readQuoted_double {first : List Char} {following : List (List Char)}
    (hn : ∀ l ∈ first :: following, '\n' ∉ l) :
    readQuoted .double first following = decoded (join ['\n'] (first :: following)) := by
  unfold readQuoted decoded
  cases hf : find? .double first following with
  | none =>
      have hd : decode? (join ['\n'] (first :: following)) = none := by
        refine Option.eq_none_iff_forall_ne_some.mpr fun (value, rest) h => ?_
        -- A quote at which the pass stops would close the value for the search as well.
        obtain ⟨inner, hj, hi⟩ := decode?_eq_some_iff.mp h
        exact not_inside_of_find?_eq_none hn hf hj hi
      simp only [hd]
  | some found =>
      obtain ⟨more, after, rfl, hused, inner, hj, htrailing, hi⟩ := encloses_of_find? hn hf
      obtain ⟨hfirst, hfollowing⟩ := List.forall_mem_cons.mp hn
      have hafter : ∀ l ∈ after, '\n' ∉ l := fun l hl => hfollowing l (List.mem_append_right more hl)
      have htext : join ['\n'] (first :: (more ++ after))
          = inner ++ '"' :: (found.trailing ++ after.flatMap ('\n' :: ·)) := by
        rw [join_append, hj, List.append_assoc, List.cons_append]
        rfl
      -- The newlines that the pass leaves behind are those of the lines that the search leaves.
      have hcount : (join ['\n'] (first :: (more ++ after))).count '\n'
          - (found.trailing ++ after.flatMap ('\n' :: ·)).count '\n' = found.used := by
        rw [join_cons, List.count_append, List.count_append, List.count_eq_zero.mpr hfirst,
          List.count_eq_zero.mpr htrailing, count_flatMap_newline hfollowing, count_flatMap_newline hafter,
          List.length_append, hused]
        omega
      have hd : decode? (join ['\n'] (first :: (more ++ after)))
          = some (Quote.double.value found.inner, found.trailing ++ after.flatMap ('\n' :: ·)) :=
        decode?_eq_some_iff.mpr ⟨inner, htext, hi⟩
      simp only [hd, takeWhile_append_lines htrailing, hcount]

/-- **The two readings of a value in double quotes agree**: the search for the closing quote line by line with the
escapes resolved afterwards, and one pass over the lines joined. They read the same value and take the same number of
lines, or refuse the value for the same reason; so an assignment with such a value is read by one pass. -/
theorem entriesFrom_eq_resumed_decoded {first : List Char} {following : List (List Char)}
    (hn : ∀ l ∈ first :: following, '\n' ∉ l) :
    readQuoted .double first following = decoded (join ['\n'] (first :: following))
      ∧ ∀ number line key, statement line = .ok (.quoted key .double first) →
          entriesFrom number (line :: following)
            = resumed number key following (decoded (join ['\n'] (first :: following))) := by
  refine ⟨readQuoted_double hn, fun number line key h => ?_⟩
  rw [entriesFrom_of_quoted h, readQuoted_double hn]

/-- The lines of a value behind its opening quote. The first ends with a backslash, and the quote that starts the
second closes the value. -/
def splitValue : List (List Char) := ["a\\n\\".toList, "\" # \"".toList, "B=b".toList]

theorem entriesFrom_eq_resumed_decoded_split :
    (∀ l ∈ splitValue, '\n' ∉ l)
      ∧ readQuoted .double "a\\n\\".toList ["\" # \"".toList, "B=b".toList] = .ok ("a\n\\\n".toList, 1)
      ∧ entriesFrom 1 ("A=\"a\\n\\".toList :: ["\" # \"".toList, "B=b".toList])
          = .ok [("A", "a\n\\\n"), ("B", "b")] := by
  have hn : ∀ l ∈ splitValue, '\n' ∉ l := by decide
  obtain ⟨hquoted, hread⟩ := entriesFrom_eq_resumed_decoded hn
  have hdecoded : decoded (join ['\n'] splitValue) = .ok ("a\n\\\n".toList, 1) := by decide +kernel
  have hstatement : statement "A=\"a\\n\\".toList = .ok (.quoted ['A'] .double "a\\n\\".toList) := by
    decide +kernel
  have hrest : entriesFrom 3 ["B=b".toList] = .ok [("B", "b")] := by decide +kernel
  refine ⟨hn, hquoted.trans hdecoded, ?_⟩
  calc entriesFrom 1 ("A=\"a\\n\\".toList :: ["\" # \"".toList, "B=b".toList])
      = resumed 1 ['A'] ["\" # \"".toList, "B=b".toList] (decoded (join ['\n'] splitValue)) :=
        hread 1 _ _ hstatement
    _ = (entriesFrom 3 ["B=b".toList]).map (("A", "a\n\\\n") :: ·) := by rw [hdecoded]; rfl
    _ = .ok [("A", "a\n\\\n"), ("B", "b")] := by rw [hrest]; rfl

end Stencil.KeyValue
