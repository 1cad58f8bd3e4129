import Stencil.Json.Printer
import Stencil.Proofs.Format.Chain
import Stencil.Proofs.Json.Reading
import Stencil.Proofs.Members

/-!
# Reading undoes printing in JSON

The compact text of a value is a row of tokens. However white space is put around them, the reader finds the
value again: strings whatever their characters are, integers as far as 64 bits go, and the members of objects
in the order in which they were printed, at every depth.

Main statement: `resolve_layout`.
-/

namespace Stencil.Json

open Stencil.Decimal

/-! ## Tokens -/

mutual

/-- The tokens of the compact text of a value. -/
def tokens : Json → List (List Char)
  | .null => [['n', 'u', 'l', 'l']]
  | .bool true => [['t', 'r', 'u', 'e']]
  | .bool false => [['f', 'a', 'l', 's', 'e']]
  | .number n => [numberText n]
  | .string s => [stringText s]
  | .array items => ['['] :: (itemTokens items ++ [[']']])
  | .object members => ['\x7b'] :: (memberTokens members ++ [['\x7d']])

def itemTokens : List Json → List (List Char)
  | [] => []
  | [v] => tokens v
  | v :: vs => tokens v ++ [','] :: itemTokens vs

def memberTokens : List (String × Json) → List (List Char)
  | [] => []
  | [(k, v)] => stringText k :: [':'] :: tokens v
  | (k, v) :: ms => stringText k :: [':'] :: (tokens v ++ [','] :: memberTokens ms)

end

mutual

/-- The tokens of a value are its compact text cut up. -/
theorem flatten_tokens : ∀ v : Json, v.tokens.flatten = v.compact
  | .null | .bool true | .bool false | .number _ | .string _ => by simp [tokens, compact]
  | .array items => by simp [tokens, compact, flatten_itemTokens items]
  | .object members => by simp [tokens, compact, flatten_memberTokens members]

theorem flatten_itemTokens : ∀ vs : List Json, (itemTokens vs).flatten = compactItems vs
  | [] => rfl
  | [v] => flatten_tokens v
  | v :: w :: vs => by
      simp [itemTokens, compactItems, flatten_tokens v, flatten_itemTokens (w :: vs)]

theorem flatten_memberTokens : ∀ ms : List (String × Json),
    (memberTokens ms).flatten = compactMembers ms
  | [] => rfl
  | [(k, v)] => by simp [memberTokens, compactMembers, flatten_tokens v]
  | (k, v) :: m :: ms => by
      simp [memberTokens, compactMembers, flatten_tokens v, flatten_memberTokens (m :: ms)]

end

/-- Tokens with white space in front of them. -/
inductive Spaced : List (List Char) → List Char → Prop where
  | nil : Spaced [] []
  | cons {w t text : List Char} {ts : List (List Char)} (hw : AllSpace w) (h : Spaced ts text) :
      Spaced (t :: ts) (w ++ (t ++ text))

/-- Whether a text is the compact text of a value with white space put around its tokens. -/
def IsLayout (v : Json) (text : List Char) : Prop :=
  ∃ spaced trail, text = spaced ++ trail ∧ Spaced v.tokens spaced ∧ AllSpace trail

/-- The same white space in front of every token. -/
theorem spaced_flatMap {w : List Char} (hw : AllSpace w) (ts : List (List Char)) :
    Spaced ts (ts.flatMap (w ++ ·)) := by
  induction ts with
  | nil => exact .nil
  | cons t ts ih =>
      rw [List.flatMap_cons, List.append_assoc]
      exact .cons hw ih

/-- The compact text of a value is one of its layouts. -/
theorem isLayout_compact (v : Json) : IsLayout v v.compact := by
  refine ⟨_, [], ?_, spaced_flatMap allSpace_nil v.tokens, allSpace_nil⟩
  simp [← flatten_tokens, List.flatMap_def]

theorem Spaced.split {ts us : List (List Char)} {text : List Char} (h : Spaced (ts ++ us) text) :
    ∃ a b, text = a ++ b ∧ Spaced ts a ∧ Spaced us b := by
  induction ts generalizing text with
  | nil => exact ⟨[], text, rfl, .nil, h⟩
  | cons t ts ih =>
      cases h with
      | cons hw h =>
          obtain ⟨a, b, rfl, ha, hb⟩ := ih h
          exact ⟨_, b, by simp only [List.append_assoc], .cons hw ha, hb⟩

theorem Spaced.split_first {t : List Char} {ts : List (List Char)} {text : List Char}
    (h : Spaced (t :: ts) text) : ∃ a b, text = a ++ b ∧ Spaced [t] a ∧ Spaced ts b :=
  Spaced.split h

/-! ## Strings -/

theorem hex4?_hexDigit : ∀ n < 0x20, hex4? '0' '0' (hexDigit (n / 16)) (hexDigit (n % 16)) = some n := by
  decide

/-- A character is read as it is written between quotes. -/
theorem body_stringChar (c : Char) {cs s rest : List Char} (h : Body cs s rest) :
    Body (stringChar c ++ cs) (c :: s) rest := by
  have hcode : ∀ n : Nat, c.toNat = n → c = Char.ofNat n := fun n hn => by rw [← hn, Char.ofNat_toNat]
  unfold stringChar
  split
  · rename_i hc
    subst hc
    exact .letter rfl h
  split
  · rename_i hc
    subst hc
    exact .letter rfl h
  split
  · -- Of the control characters, five have a letter each. The others are written as their codes.
    rename_i hlow
    split
    · rename_i hc
      exact .letter (hcode _ hc ▸ rfl) h
    split
    · rename_i hc
      exact .letter (hcode _ hc ▸ rfl) h
    split
    · rename_i hc
      exact .letter (hc ▸ rfl) h
    split
    · rename_i hc
      exact .letter (hc ▸ rfl) h
    split
    · rename_i hc
      exact .letter (hc ▸ rfl) h
    · have hhex := hex4?_hexDigit c.toNat hlow
      have hs : ¬ IsSurrogate c.toNat := fun hs => by unfold IsSurrogate at hs; omega
      have hbody := Body.code hhex hs h
      rwa [Char.ofNat_toNat] at hbody
  · rename_i hq hb hlow
    exact .char (Nat.le_of_not_gt hlow) hq hb h

theorem body_stringText (s rest : List Char) :
    Body (s.flatMap stringChar ++ '"' :: rest) s rest := by
  induction s with
  | nil => exact .close
  | cons c s ih =>
      rw [List.flatMap_cons, List.append_assoc]
      exact body_stringChar c ih

/-! ## Integers -/

theorem digits_digits (n : Nat) : Digits (digits n) :=
  ⟨Nat.toDigits_ne_nil, fun _ hc => Nat.isDigit_of_mem_toDigits (by decide) (by decide) hc⟩

theorem ofDigits_digits (n : Nat) : ofDigits (digits n) = n :=
  Nat.ofDigitChars_toDigits (by decide) (by decide)

theorem head?_digits_ne_zero {n : Nat} (hn : n ≠ 0) : (digits n).head? ≠ some '0' := by
  induction n using Nat.strongRecOn with
  | ind n ih =>
      by_cases hlt : n < 10
      · rw [digits, Nat.toDigits_of_lt_base hlt]
        have hall : ∀ k < 10, k ≠ 0 → Nat.digitChar k ≠ '0' := by decide
        simpa using hall n hlt hn
      · have hmore := ih (n / 10) (by omega) (by omega)
        obtain ⟨d, ds, hds⟩ := List.exists_cons_of_ne_nil (Nat.toDigits_ne_nil (n := n / 10) (b := 10))
        rw [digits, hds] at hmore
        rw [digits, Nat.toDigits_of_base_le (by decide) (Nat.le_of_not_lt hlt), hds]
        exact hmore

/-- No superfluous zero stands in front of the digits of a number. -/
theorem length_digits_of_zero {n : Nat} (h : (digits n).head? = some '0') : (digits n).length ≤ 1 := by
  by_cases hn : n = 0
  · subst hn
    decide
  · exact absurd h (head?_digits_ne_zero hn)

/-- Whether a number is an integer that fits 64 bits, with or without a sign. -/
def IsWord : Number → Prop
  | .int n => -(twoTo 63 : Int) ≤ n ∧ n ≤ (maxWord : Int)
  | .float _ => False

/-- An integer of 64 bits as it is written: its sign and its digits. -/
theorem exists_spelled_of_isWord {n : Int} (h : IsWord (.int n)) :
    ∃ numerals, Spelled numerals (ofInt n) ∧ numerals.number? = some (.int n) := by
  have hd := digits_digits n.natAbs
  have hz := length_digits_of_zero (n := n.natAbs)
  have hspelled : ∀ negative, Spelled ⟨negative, digits n.natAbs, none, none⟩
      ((if negative then ['-'] else []) ++ (digits n.natAbs ++ ([] ++ []))) :=
    fun negative => .intro hd hz .none .none
  obtain ⟨hl, hu⟩ := h
  unfold ofInt
  split
  · rename_i hneg
    refine ⟨_, by simpa using hspelled true, ?_⟩
    have hpos : 0 < n.natAbs ∧ n.natAbs ≤ twoTo 63 := by omega
    have hn : Int.neg n.natAbs = n := by
      show -(n.natAbs : Int) = n
      omega
    have hint : Int.neg (Int.ofNat n.natAbs) = n := hn
    simp [Numerals.number?, ofDigits_digits, hpos, hint, -Int.ofNat_eq_natCast]
  · rename_i hneg
    refine ⟨_, by simpa using hspelled false, ?_⟩
    have hmax : n.natAbs ≤ maxWord := by omega
    have hn : (n.natAbs : Int) = n := by omega
    simp [Numerals.number?, ofDigits_digits, hmax, hn]

/-! ## Values -/

mutual

/-- Whether a value can be read back: its numbers are integers of 64 bits, and no object has two members
with one name. -/
def Storable : Json → Prop
  | .null | .bool _ | .string _ => True
  | .number n => IsWord n
  | .array items => StorableItems items
  | .object members => (Members.keys members).Nodup ∧ StorableMembers members

/-- Whether items can be read back. -/
def StorableItems : List Json → Prop
  | [] => True
  | v :: vs => Storable v ∧ StorableItems vs

/-- Whether the values of members can be read back. -/
def StorableMembers : List (String × Json) → Prop
  | [] => True
  | (_, v) :: ms => Storable v ∧ StorableMembers ms

end

mutual

/-- How many arrays and objects are nested in a value, the value itself included. -/
def levels : Json → Nat
  | .null | .bool _ | .number _ | .string _ => 0
  | .array items => levelsOfItems items + 1
  | .object members => levelsOfMembers members + 1

/-- How many arrays and objects are nested in the deepest of some items. -/
def levelsOfItems : List Json → Nat
  | [] => 0
  | v :: vs => max (levels v) (levelsOfItems vs)

/-- How many arrays and objects are nested in the deepest value of some members. -/
def levelsOfMembers : List (String × Json) → Nat
  | [] => 0
  | (_, v) :: ms => max (levels v) (levelsOfMembers ms)

end

/-! ## The round trip -/

theorem stops_of_skipSpace {cs rest : List Char} {c : Char} (h : skipSpace cs = c :: rest)
    (hc : isBareChar c = false) : Stops cs := by
  intro d hd
  cases cs with
  | nil => cases hd
  | cons e cs =>
      cases hd
      cases hb : isBareChar d with
      | false => rfl
      | true =>
          rw [skipSpace_of_not_isSpace (isSpace_of_isBareChar hb)] at h
          obtain ⟨rfl, -⟩ := List.cons.inj h
          rw [hc] at hb
          contradiction

theorem spaced_singleton {t text : List Char} (h : Spaced [t] text) :
    ∃ w, AllSpace w ∧ text = w ++ t := by
  cases h with
  | cons hw h =>
      cases h
      exact ⟨_, hw, by rw [List.append_nil]⟩

theorem skipSpace_token {c : Char} {t text : List Char} (hc : isSpace c = false)
    (h : Spaced [c :: t] text) (rest : List Char) : skipSpace (text ++ rest) = c :: (t ++ rest) := by
  obtain ⟨w, hw, rfl⟩ := spaced_singleton h
  rw [List.append_assoc, skipSpace_append hw]
  exact skipSpace_of_not_isSpace hc _

/-- Whether a value, or a member, is read from its tokens in front of what cannot go on with it. -/
def ReadBack {α : Type} (one : Read α) (a : α) (ts : List (List Char)) : Prop :=
  ∀ text rest, Spaced ts text → Stops rest → one (text ++ rest) a rest

section Listed

variable {α : Type} {one : Read α} {close : Char} {a : α} {ts us : List (List Char)}
  {text rest : List Char}

theorem listed_last (hs : isSpace close = false) (hb : isBareChar close = false)
    (ha : ReadBack one a ts) (ht : Spaced (ts ++ [[close]]) text) :
    Listed one close (text ++ rest) [a] rest := by
  obtain ⟨front, back, rfl, hfront, hback⟩ := ht.split
  have hclose := skipSpace_token hs hback rest
  rw [List.append_assoc]
  exact .last (ha _ _ hfront (stops_of_skipSpace hclose hb)) hclose

theorem listed_more {as : List α} (ha : ReadBack one a ts)
    (has : ∀ text, Spaced us text → Listed one close (text ++ rest) as rest)
    (ht : Spaced (ts ++ [','] :: us) text) : Listed one close (text ++ rest) (a :: as) rest := by
  obtain ⟨front, back, rfl, hfront, hback⟩ := ht.split
  obtain ⟨comma, next, rfl, hcomma, hnext⟩ := hback.split_first
  have hskip := skipSpace_token (by decide) hcomma (next ++ rest)
  rw [List.append_assoc, List.append_assoc]
  exact .more (ha _ _ hfront (stops_of_skipSpace hskip (by decide))) hskip (has next hnext)

end Listed

theorem readBack_member {item : List Char → Option (Json × List Char)} {v : Json}
    (hv : ReadBack (Item item) v v.tokens) (k : String) :
    ReadBack (Member item) (k, v) (stringText k :: [':'] :: v.tokens) := by
  intro text rest ht hr
  obtain ⟨name, more, rfl, hname, hmore⟩ := ht.split_first
  obtain ⟨colon, after, rfl, hcolon, hafter⟩ := hmore.split_first
  have hquote := skipSpace_token (by decide) hname (colon ++ (after ++ rest))
  have hbody := body_stringText k.toList (colon ++ (after ++ rest))
  have hskip := skipSpace_token (by decide) hcolon (after ++ rest)
  have hmember := Member.intro (by simpa using hquote) hbody hskip (hv after rest hafter hr)
  rw [String.ofList_toList] at hmember
  simpa only [List.append_assoc] using hmember

theorem readBack_word {depth : Nat} {w : List Char} {v : Json} (h : (w, v) ∈ words) :
    ReadBack (Item (value depth)) v [w] := by
  intro text rest ht hr
  obtain ⟨space, hspace, rfl⟩ := spaced_singleton ht
  obtain ⟨c, more, rfl, -⟩ := (bare_of_mem_words h).head
  have hc := isSpace_of_isBareChar ((bare_of_mem_words h).char c List.mem_cons_self)
  refine value_eq_some_iff.mpr ?_
  rw [skipSpace_token hc ht rest]
  exact .word h

theorem readBack_number {depth : Nat} {n : Number} (h : IsWord n) :
    ReadBack (Item (value depth)) (.number n) [numberText n] := by
  intro text rest ht hr
  cases n with
  | float x => exact absurd h id
  | int n =>
      obtain ⟨numerals, hs, hx⟩ := exists_spelled_of_isWord h
      obtain ⟨c, more, hc, -⟩ := head_of_spelled hs
      have hspace := isSpace_of_isBareChar (isBareChar_of_spelled hs c (hc ▸ List.mem_cons_self))
      refine value_eq_some_iff.mpr ?_
      rw [numberText, hc] at ht
      rw [skipSpace_token hspace ht rest, ← List.cons_append, ← hc]
      exact .number (numerals?_of_spelled hs hr) hx

theorem readBack_string {depth : Nat} (s : String) :
    ReadBack (Item (value depth)) (.string s) [stringText s] := by
  intro text rest ht hr
  have hshape : Shape depth _ (.string (String.ofList s.toList)) rest :=
    .string (body_stringText s.toList rest)
  rw [String.ofList_toList] at hshape
  refine value_eq_some_iff.mpr ?_
  rw [skipSpace_token (by decide) ht rest]
  simpa using hshape

/-- What starts with a bracket is told by what stands behind it. -/
theorem readBack_bracketed {depth : Nat} {bracket : Char} {ts : List (List Char)} {v : Json}
    (hb : isSpace bracket = false)
    (h : ∀ text rest, Spaced ts text → Shape depth (bracket :: (text ++ rest)) v rest) :
    ReadBack (Item (value depth)) v ([bracket] :: ts) := by
  intro text rest ht _
  obtain ⟨front, back, rfl, hfront, hback⟩ := ht.split_first
  refine value_eq_some_iff.mpr ?_
  rw [List.append_assoc, skipSpace_token hb hfront]
  exact h back rest hback

mutual

theorem readBack_value : ∀ (v : Json) {depth : Nat}, Storable v → levels v ≤ depth →
    ReadBack (Item (value depth)) v v.tokens
  | .null, depth, hs, hl => readBack_word (by simp [words])
  | .bool true, depth, hs, hl => readBack_word (by simp [words])
  | .bool false, depth, hs, hl => readBack_word (by simp [words])
  | .number n, depth, hs, hl => readBack_number hs
  | .string s, depth, hs, hl => readBack_string s
  | .array items, depth, hs, hl => by
      obtain ⟨depth, rfl⟩ := Nat.exists_eq_succ_of_ne_zero (Nat.ne_zero_of_lt hl)
      refine readBack_bracketed (by decide) fun text rest ht => ?_
      by_cases hne : items = []
      · subst hne
        exact .emptyArray (skipSpace_token (by decide) ht rest)
      · exact .array (listed_items items hne hs (Nat.le_of_succ_le_succ hl) ht)
  | .object members, depth, hs, hl => by
      obtain ⟨depth, rfl⟩ := Nat.exists_eq_succ_of_ne_zero (Nat.ne_zero_of_lt hl)
      refine readBack_bracketed (by decide) fun text rest ht => ?_
      by_cases hne : members = []
      · subst hne
        exact .emptyObject (skipSpace_token (by decide) ht rest)
      · have hobject : Shape (depth + 1) _ (.object (Members.ofEntries members)) rest :=
          .object (listed_members members hne hs.2 (Nat.le_of_succ_le_succ hl) ht)
        rwa [Members.ofEntries_of_nodup hs.1] at hobject

theorem listed_items : ∀ (vs : List Json) {depth : Nat} {text rest : List Char}, vs ≠ [] →
    StorableItems vs → levelsOfItems vs ≤ depth → Spaced (itemTokens vs ++ [[']']]) text →
    Listed (Item (value depth)) ']' (text ++ rest) vs rest
  | [], depth, text, rest, hne, hs, hl, ht => absurd rfl hne
  | [v], depth, text, rest, hne, hs, hl, ht => by
      have hv := readBack_value v hs.1 (Nat.le_trans (Nat.le_max_left _ _) hl)
      exact listed_last (by decide) (by decide) hv ht
  | v :: w :: vs, depth, text, rest, hne, hs, hl, ht => by
      have hv := readBack_value v hs.1 (Nat.le_trans (Nat.le_max_left _ _) hl)
      refine listed_more hv (fun text ht => ?_) (by simpa [itemTokens] using ht)
      exact listed_items (w :: vs) (by simp) hs.2 (Nat.le_trans (Nat.le_max_right _ _) hl) ht

theorem listed_members : ∀ (ms : List (String × Json)) {depth : Nat} {text rest : List Char},
    ms ≠ [] → StorableMembers ms → levelsOfMembers ms ≤ depth →
    Spaced (memberTokens ms ++ [['\x7d']]) text →
    Listed (Member (value depth)) '\x7d' (text ++ rest) ms rest
  | [], depth, text, rest, hne, hs, hl, ht => absurd rfl hne
  | [(k, v)], depth, text, rest, hne, hs, hl, ht => by
      have hv := readBack_value v hs.1 (Nat.le_trans (Nat.le_max_left _ _) hl)
      exact listed_last (by decide) (by decide) (readBack_member hv k) ht
  | (k, v) :: m :: ms, depth, text, rest, hne, hs, hl, ht => by
      have hv := readBack_value v hs.1 (Nat.le_trans (Nat.le_max_left _ _) hl)
      refine listed_more (readBack_member hv k) (fun text ht => ?_) (by simpa [memberTokens] using ht)
      exact listed_members (m :: ms) (by simp) hs.2 (Nat.le_trans (Nat.le_max_right _ _) hl) ht

end

/-- **Reading undoes printing**, whatever white space is put between the tokens. -/
theorem parse?_layout {v : Json} (hs : Storable v) (hl : levels v ≤ 127) {text : String}
    (ht : IsLayout v text.toList) : parse? text = some v := by
  obtain ⟨spaced, trail, htext, hspaced, htrail⟩ := ht
  have hstops : Stops trail := by
    intro c hc
    have hspace := htrail c (List.mem_of_head? hc)
    cases hb : isBareChar c with
    | false => rfl
    | true => simp [isSpace_of_isBareChar hb] at hspace
  have hv : value maxDepth (spaced ++ trail) = some (v, trail) :=
    readBack_value v hs hl spaced trail hspaced hstops
  simp [parse?, htext, hv, skipSpace_eq_nil_iff.mpr htrail]

/-- **An object is detected as JSON and read unchanged**, its members in order at every depth. -/
theorem resolve_layout {m : Members Json} (hne : m ≠ []) (hs : Storable (.object m))
    (hl : levels (.object m) ≤ 127) {text : String} (ht : IsLayout (.object m) text.toList) :
    ∃ vars, Chain.standard.resolve text = .ok ⟨vars, .json⟩ ∧ vars.members = m := by
  have hparse := parse?_layout hs hl ht
  let vars : Variables := ⟨m, hne⟩
  have hmembers : Format.members .json text = .ok vars.members := by
    simp [Format.members, Format.jsonMembers, hparse, vars]
  refine ⟨vars, ?_, rfl⟩
  refine Chain.resolve_eq_ok_iff.mpr ⟨[], [.yaml, .keyValue], Chain.formats_standard, by simp, ?_⟩
  exact Format.read_of_members (not_allBlank_of_parse? hparse) hmembers

/-- A member that is printed in every way there is: nested brackets, the least integer of 64 bits and the
greatest, and a string whose characters have to be escaped. -/
def printed : Members Json :=
  [("=", .array [.number (.int (-9223372036854775808)), .number (.int 18446744073709551615), .null]),
    ("", .object [("\x01", .string "\"é\\"), ("b", .bool true), ("a", .array [])])]

/-- A text of them with spaces between the tokens. -/
def printedText : String :=
  " \x7b \"=\" : [ -9223372036854775808 , 18446744073709551615 , null ] ,"
    ++ " \"\" : \x7b \"\\u0001\" : \"\\\"é\\\\\" , \"b\" : true , \"a\" : [ ] \x7d \x7d\n"

theorem resolve_layout_printed :
    printed ≠ [] ∧ Storable (.object printed) ∧ levels (.object printed) ≤ 127
      ∧ IsLayout (.object printed) printedText.toList
      ∧ ∃ vars, Chain.standard.resolve printedText = .ok ⟨vars, .json⟩ ∧ vars.members = printed := by
  have hne : printed ≠ [] := by simp [printed]
  have hs : Storable (.object printed) := by
    have hmax : (18446744073709551615 : Int) ≤ (maxWord : Int) := by decide
    simp [printed, Storable, StorableItems, StorableMembers, IsWord, Members.keys, hmax]
  have hl : levels (.object printed) ≤ 127 := by decide
  have htext : printedText.toList = (tokens (.object printed)).flatMap ([' '] ++ ·) ++ ['\n'] := by
    decide +kernel
  have ht : IsLayout (.object printed) printedText.toList :=
    ⟨_, ['\n'], htext, spaced_flatMap (by decide) _, by decide⟩
  exact ⟨hne, hs, hl, ht, resolve_layout hne hs hl ht⟩

end Stencil.Json
