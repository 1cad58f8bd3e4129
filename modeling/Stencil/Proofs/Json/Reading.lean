import Stencil.Proofs.Json.Bare
import Stencil.Proofs.Json.Quoted
import Stencil.Text.Blank

/-!
# What the reader of JSON takes

The reader is bounded by a depth and by the length of the text; the grammar it follows is not. Here the
grammar is a relation between a text, what is read from its front, and what is left (`Shape`, and `Listed` for
what stands between brackets), and reading is shown to be that relation. What holds of all values is then
shown by one look at each way in which a value can be written.

Main statements: `value_eq_some_iff` and `parse?_eq_some_iff`.
-/

namespace Stencil.Json

/-! ## The grammar -/

/-- Things with commas between them, up to a closing bracket. -/
inductive Listed {α : Type} (one : Read α) (close : Char) : Read (List α) where
  | last {cs mid rest : List Char} {a : α} (ha : one cs a mid) (hs : skipSpace mid = close :: rest) :
      Listed one close cs [a] rest
  | more {cs mid next rest : List Char} {a : α} {as : List α} (ha : one cs a mid)
      (hs : skipSpace mid = ',' :: next) (has : Listed one close next as rest) :
      Listed one close cs (a :: as) rest

/-- An item, as a reader of values reads it. -/
def Item (item : List Char → Option (Json × List Char)) : Read Json :=
  fun cs v rest => item cs = some (v, rest)

/-- A member: a name between quotes, a colon, and a value. -/
inductive Member (item : List Char → Option (Json × List Char)) : Read (String × Json) where
  | intro {cs name k behind after rest : List Char} {v : Json} (hq : skipSpace cs = '"' :: name)
      (hk : Body name k behind) (hc : skipSpace behind = ':' :: after)
      (hv : item after = some (v, rest)) : Member item cs (String.ofList k, v) rest

/-- A value whose text has no white space in front. -/
inductive Shape : Nat → Read Json where
  | string {depth : Nat} {cs s rest : List Char} (h : Body cs s rest) :
      Shape depth ('"' :: cs) (.string (String.ofList s)) rest
  | word {depth : Nat} {w rest : List Char} {v : Json} (h : (w, v) ∈ words) :
      Shape depth (w ++ rest) v rest
  | number {depth : Nat} {cs rest : List Char} {n : Numerals} {x : Number}
      (hn : numerals? cs = some (n, rest)) (hx : n.number? = some x) : Shape depth cs (.number x) rest
  | emptyArray {depth : Nat} {cs rest : List Char} (h : skipSpace cs = ']' :: rest) :
      Shape (depth + 1) ('[' :: cs) (.array []) rest
  | array {depth : Nat} {cs rest : List Char} {vs : List Json}
      (h : Listed (Item (value depth)) ']' cs vs rest) : Shape (depth + 1) ('[' :: cs) (.array vs) rest
  | emptyObject {depth : Nat} {cs rest : List Char} (h : skipSpace cs = '\x7d' :: rest) :
      Shape (depth + 1) ('\x7b' :: cs) (.object []) rest
  | object {depth : Nat} {cs rest : List Char} {ms : List (String × Json)}
      (h : Listed (Member (value depth)) '\x7d' cs ms rest) :
      Shape (depth + 1) ('\x7b' :: cs) (.object (Members.ofEntries ms)) rest

/-! ## What is read follows the grammar -/

variable {item : List Char → Option (Json × List Char)} {cs rest : List Char} {depth : Nat} {v : Json}

theorem listed_of_items {n : Nat} {vs : List Json} (h : items item n cs = some (vs, rest)) :
    Listed (Item item) ']' cs vs rest := by
  induction n generalizing cs vs with
  | zero => cases h
  | succ n ih =>
      simp only [items, bind, Option.bind_eq_some_iff] at h
      obtain ⟨⟨v, mid⟩, hv, h⟩ := h
      dsimp only at h
      split at h
      · rename_i next hs
        obtain ⟨⟨vs, rest⟩, hvs, h⟩ := Option.bind_eq_some_iff.mp h
        cases h
        exact .more hv hs (ih hvs)
      · rename_i next hs
        cases h
        exact .last hv hs
      · contradiction

theorem listed_of_members {n : Nat} {ms : List (String × Json)}
    (h : members item n cs = some (ms, rest)) : Listed (Member item) '\x7d' cs ms rest := by
  induction n generalizing cs ms with
  | zero => cases h
  | succ n ih =>
      unfold members at h
      split at h
      · rename_i name hq
        simp only [bind, Option.bind_eq_some_iff] at h
        obtain ⟨⟨k, behind⟩, hk, h⟩ := h
        dsimp only at h
        split at h
        · rename_i after hc
          obtain ⟨⟨v, mid⟩, hv, h⟩ := Option.bind_eq_some_iff.mp h
          dsimp only at h
          split at h
          · rename_i next hs
            obtain ⟨⟨ms, rest⟩, hms, h⟩ := Option.bind_eq_some_iff.mp h
            cases h
            exact .more (.intro hq (stringBody_eq_some_iff.mp hk) hc hv) hs (ih hms)
          · rename_i next hs
            cases h
            exact .last (.intro hq (stringBody_eq_some_iff.mp hk) hc hv) hs
          · contradiction
        · contradiction
      · contradiction

theorem shape_of_afterWord? {c : Char} {w : List Char} {u : Json} (hu : (c :: w, u) ∈ words)
    (h : (afterWord? w cs).map (fun r => (u, r)) = some (v, rest)) : Shape depth (c :: cs) v rest := by
  obtain ⟨r, hw, h⟩ := Option.map_eq_some_iff.mp h
  cases h
  rw [afterWord?_eq_some_iff.mp hw]
  exact .word (w := c :: w) hu

theorem shape_of_value (h : value depth cs = some (v, rest)) : Shape depth (skipSpace cs) v rest := by
  -- By the first character: there is none, a quote, a bracket, a brace, or the start of a word or a number.
  unfold value at h
  split at h
  · contradiction
  · rename_i cs hs
    obtain ⟨⟨s, r⟩, hb, h⟩ := Option.map_eq_some_iff.mp h
    cases h
    exact hs ▸ .string (stringBody_eq_some_iff.mp hb)
  · rename_i cs hs
    cases depth with
    | zero => contradiction
    | succ depth =>
        dsimp only at h
        split at h
        · rename_i r hs'
          cases h
          exact hs ▸ .emptyArray hs'
        · obtain ⟨⟨vs, r⟩, hvs, h⟩ := Option.map_eq_some_iff.mp h
          cases h
          exact hs ▸ .array (listed_of_items hvs)
  · rename_i cs hs
    cases depth with
    | zero => contradiction
    | succ depth =>
        dsimp only at h
        split at h
        · rename_i r hs'
          cases h
          exact hs ▸ .emptyObject hs'
        · obtain ⟨⟨ms, r⟩, hms, h⟩ := Option.map_eq_some_iff.mp h
          cases h
          exact hs ▸ .object (listed_of_members hms)
  · rename_i c cs _ _ _ hs
    rw [hs]
    split at h
    · rename_i hc
      exact hc ▸ shape_of_afterWord? (by simp [words]) h
    split at h
    · rename_i hc
      exact hc ▸ shape_of_afterWord? (by simp [words]) h
    split at h
    · rename_i hc
      exact hc ▸ shape_of_afterWord? (by simp [words]) h
    · obtain ⟨⟨n, r⟩, hn, h⟩ := Option.bind_eq_some_iff.mp h
      obtain ⟨x, hx, h⟩ := Option.map_eq_some_iff.mp h
      cases h
      exact .number hn hx

/-! ## Something is always taken -/

theorem Body.length_lt {s : List Char} (h : Body cs s rest) : rest.length < cs.length := by
  induction h with
  | close => simp
  | char _ _ _ _ ih | letter _ _ ih | code _ _ _ ih | pair _ _ _ _ _ ih =>
      simp only [List.length_cons]
      omega

/-- What a closing bracket or a comma is found behind is longer than what is left. -/
theorem length_lt_of_skipSpace {c : Char} (h : skipSpace cs = c :: rest) : rest.length < cs.length := by
  have hl := length_skipSpace_le cs
  rw [h, List.length_cons] at hl
  exact hl

/-- Whether a reader always takes something. -/
def Shortens {α : Type} (one : Read α) : Prop := ∀ cs a rest, one cs a rest → rest.length < cs.length

theorem shortens_listed {α : Type} {one : Read α} (ho : Shortens one) (close : Char) :
    Shortens (Listed one close) := by
  intro cs as rest h
  induction h with
  | last ha hs => exact Nat.lt_trans (length_lt_of_skipSpace hs) (ho _ _ _ ha)
  | more ha hs has ih =>
      exact Nat.lt_trans ih (Nat.lt_trans (length_lt_of_skipSpace hs) (ho _ _ _ ha))

theorem shortens_member (ho : Shortens (Item item)) : Shortens (Member item) := by
  rintro _ _ _ ⟨hq, hk, hc, hv⟩
  have hname := Nat.lt_trans hk.length_lt (length_lt_of_skipSpace hq)
  exact Nat.lt_trans (ho _ _ _ hv) (Nat.lt_trans (length_lt_of_skipSpace hc) hname)

theorem shortens_shape (ho : ∀ d, depth = d + 1 → Shortens (Item (value d))) :
    Shortens (Shape depth) := by
  intro cs v rest h
  cases h with
  | string h => exact Nat.lt_succ_of_lt h.length_lt
  | word h =>
      obtain ⟨c, w, rfl, -⟩ := (bare_of_mem_words h).head
      simp only [List.cons_append, List.length_cons, List.length_append]
      omega
  | number hn hx =>
      obtain ⟨w, rfl, hw⟩ := spelled_of_numerals? hn
      obtain ⟨c, w, rfl, -⟩ := (bare_of_spelled hw).head
      simp only [List.cons_append, List.length_cons, List.length_append]
      omega
  | emptyArray h | emptyObject h => exact Nat.lt_succ_of_lt (length_lt_of_skipSpace h)
  | array h => exact Nat.lt_succ_of_lt (shortens_listed (ho _ rfl) _ _ _ _ h)
  | object h =>
      exact Nat.lt_succ_of_lt (shortens_listed (shortens_member (ho _ rfl)) _ _ _ _ h)

theorem shortens_value (depth : Nat) : Shortens (Item (value depth)) := by
  induction depth with
  | zero =>
      intro cs v rest h
      have hs := shortens_shape (fun _ hd => by contradiction) _ _ _ (shape_of_value h)
      exact Nat.lt_of_lt_of_le hs (length_skipSpace_le cs)
  | succ depth ih =>
      intro cs v rest h
      have hs := shortens_shape (fun d hd => Nat.succ.inj hd ▸ ih) _ _ _ (shape_of_value h)
      exact Nat.lt_of_lt_of_le hs (length_skipSpace_le cs)

/-! ## What follows the grammar is read -/

theorem items_of_listed {vs : List Json} (ho : Shortens (Item item))
    (h : Listed (Item item) ']' cs vs rest) {n : Nat} (hn : cs.length ≤ n) :
    items item n cs = some (vs, rest) := by
  induction h generalizing n with
  | last ha hs =>
      have hlt := ho _ _ _ ha
      obtain ⟨n, rfl⟩ := Nat.exists_eq_succ_of_ne_zero (n := n) (by omega)
      have ha : item _ = some _ := ha
      simp [items, ha, hs]
  | more ha hs has ih =>
      have hlt := ho _ _ _ ha
      have hnext := length_lt_of_skipSpace hs
      obtain ⟨n, rfl⟩ := Nat.exists_eq_succ_of_ne_zero (n := n) (by omega)
      have ha : item _ = some _ := ha
      simp [items, ha, hs, ih (n := n) (by omega)]

theorem members_of_listed {ms : List (String × Json)} (ho : Shortens (Item item))
    (h : Listed (Member item) '\x7d' cs ms rest) {n : Nat} (hn : cs.length ≤ n) :
    members item n cs = some (ms, rest) := by
  induction h generalizing n with
  | last ha hs =>
      have hlt := shortens_member ho _ _ _ ha
      obtain ⟨n, rfl⟩ := Nat.exists_eq_succ_of_ne_zero (n := n) (by omega)
      obtain ⟨hq, hk, hc, hv⟩ := ha
      simp [members, hq, stringBody_eq_some_iff.mpr hk, hc, hv, hs]
  | more ha hs has ih =>
      have hlt := shortens_member ho _ _ _ ha
      have hnext := length_lt_of_skipSpace hs
      obtain ⟨n, rfl⟩ := Nat.exists_eq_succ_of_ne_zero (n := n) (by omega)
      obtain ⟨hq, hk, hc, hv⟩ := ha
      simp [members, hq, stringBody_eq_some_iff.mpr hk, hc, hv, hs, ih (n := n) (by omega)]

theorem bounds_of_isBareChar {c : Char} (h : isBareChar c = true) :
    0x2B ≤ c.toNat ∧ c.toNat ≤ 0x7A := by
  have halpha : c.isAlpha = (c.isUpper || c.isLower) := rfl
  have hupper : c.isUpper = decide (c.val ≥ 65 ∧ c.val ≤ 90) := rfl
  have hlower : c.isLower = (decide (c.val ≥ 97) && decide (c.val ≤ 122)) := rfl
  simp only [isBareChar, Char.isAlphanum, halpha, hupper, hlower, Char.isDigit, Bool.or_eq_true,
    Bool.and_eq_true, decide_eq_true_eq, beq_iff_eq, ge_iff_le, UInt32.le_iff_toNat_le] at h
  have hc : c.val.toNat = c.toNat := rfl
  rcases h with ((((h | h) | h) | rfl) | rfl) | rfl
  · have h1 : 65 ≤ c.toNat := h.1
    have h2 : c.toNat ≤ 90 := h.2
    omega
  · have h1 : 97 ≤ c.toNat := h.1
    have h2 : c.toNat ≤ 122 := h.2
    omega
  · have h1 : 48 ≤ c.toNat := h.1
    have h2 : c.toNat ≤ 57 := h.2
    omega
  all_goals decide

/-- No character of a word or a number is a blank. -/
theorem isBlank_of_isBareChar {c : Char} (h : isBareChar c = true) : Text.isBlank c = false := by
  have hb := bounds_of_isBareChar h
  simp only [Text.isBlank, Bool.or_eq_false_iff, Bool.and_eq_false_iff, decide_eq_false_iff_not,
    beq_eq_false_iff_ne]
  omega

theorem isSpace_of_isBareChar {c : Char} (h : isBareChar c = true) : isSpace c = false := by
  cases hs : isSpace c with
  | false => rfl
  | true =>
      simp only [isSpace, Bool.or_eq_true, beq_iff_eq] at hs
      rcases hs with ((rfl | rfl) | rfl) | rfl <;> exact absurd h (by decide)

theorem isBareChar_of_isSpace {c : Char} (h : isSpace c = true) : isBareChar c = false := by
  rw [← Bool.not_eq_true]
  intro hb
  rw [isSpace_of_isBareChar hb] at h
  contradiction

/-- A value starts neither with a blank nor with a closing bracket. -/
theorem head_of_shape (h : Shape depth cs v rest) : ∃ c more, cs = c :: more
    ∧ Text.isBlank c = false ∧ c ≠ ']' ∧ c ≠ '\x7d' := by
  have hbare : ∀ {w : List Char}, Bare w → ∃ c more, w ++ rest = c :: more
      ∧ Text.isBlank c = false ∧ c ≠ ']' ∧ c ≠ '\x7d' := by
    intro w hw
    obtain ⟨c, more, rfl, -⟩ := hw.head
    have hc := hw.char c List.mem_cons_self
    refine ⟨c, more ++ rest, rfl, isBlank_of_isBareChar hc, ?_, ?_⟩ <;>
      (rintro rfl; exact absurd hc (by decide))
  cases h with
  | string | emptyArray | array | emptyObject | object =>
      exact ⟨_, _, rfl, by decide, by decide, by decide⟩
  | word h => exact hbare (bare_of_mem_words h)
  | number hn hx =>
      obtain ⟨w, rfl, hw⟩ := spelled_of_numerals? hn
      exact hbare (bare_of_spelled hw)

theorem value_of_number {n : Numerals} {x : Number} (hs : skipSpace cs = cs)
    (hn : numerals? cs = some (n, rest)) (hx : n.number? = some x) :
    value depth cs = some (.number x, rest) := by
  obtain ⟨w, rfl, hw⟩ := spelled_of_numerals? hn
  obtain ⟨c, more, rfl, hc⟩ := head_of_spelled hw
  have hne : ∀ d : Char, d.isDigit = false → d ≠ '-' → c ≠ d := by
    rintro d hd hm rfl
    rcases hc with hc | ⟨hc, -⟩
    · rw [hd] at hc
      contradiction
    · exact hm hc
  simp only [List.cons_append] at hs hn ⊢
  unfold value
  rw [hs]
  simp [hne 'n' (by decide) (by decide), hne 't' (by decide) (by decide),
    hne 'f' (by decide) (by decide), hne '"' (by decide) (by decide),
    hne '[' (by decide) (by decide), hne '\x7b' (by decide) (by decide), hn, hx]

theorem value_of_word {w : List Char} (h : (w, v) ∈ words) (hs : skipSpace (w ++ rest) = w ++ rest) :
    value depth (w ++ rest) = some (v, rest) := by
  unfold value
  rw [hs]
  simp only [words, List.mem_cons, List.not_mem_nil, or_false, Prod.mk.injEq] at h
  rcases h with ⟨rfl, rfl⟩ | ⟨rfl, rfl⟩ | ⟨rfl, rfl⟩ <;> simp [afterWord?]

theorem value_skipSpace (depth : Nat) (cs : List Char) : value depth (skipSpace cs) = value depth cs := by
  unfold value
  rw [skipSpace_skipSpace]

theorem Listed.exists_first {α : Type} {one : Read α} {close : Char} {as : List α}
    (h : Listed one close cs as rest) : ∃ a mid, one cs a mid := by
  cases h with
  | last ha hs => exact ⟨_, _, ha⟩
  | more ha hs has => exact ⟨_, _, ha⟩

theorem value_of_array {vs : List Json} (h : Listed (Item (value depth)) ']' cs vs rest) :
    value (depth + 1) ('[' :: cs) = some (.array vs, rest) := by
  have hne : ∀ r, skipSpace cs ≠ ']' :: r := by
    intro r hr
    obtain ⟨v, mid, hv⟩ := h.exists_first
    obtain ⟨c, more, hc, -, hclose, -⟩ := head_of_shape (shape_of_value hv)
    exact hclose (List.cons.inj (hc.symm.trans hr)).1
  have hi := items_of_listed (shortens_value depth) h (Nat.le_refl _)
  simp [value, skipSpace_cons, isSpace, hi]

theorem value_of_object {ms : List (String × Json)}
    (h : Listed (Member (value depth)) '\x7d' cs ms rest) :
    value (depth + 1) ('\x7b' :: cs) = some (.object (Members.ofEntries ms), rest) := by
  have hne : ∀ r, skipSpace cs ≠ '\x7d' :: r := by
    intro r hr
    obtain ⟨e, mid, ⟨hq, -, -, -⟩⟩ := h.exists_first
    exact absurd (List.cons.inj (hq.symm.trans hr)).1 (by decide)
  have hm := members_of_listed (shortens_value depth) h (Nat.le_refl _)
  simp [value, skipSpace_cons, isSpace, hm]

theorem value_of_shape (h : Shape depth (skipSpace cs) v rest) :
    value depth cs = some (v, rest) := by
  have hs := skipSpace_skipSpace cs
  rw [← value_skipSpace]
  generalize skipSpace cs = ds at h hs
  cases h with
  | string h => simp [value, hs, stringBody_eq_some_iff.mpr h]
  | word h => exact value_of_word h hs
  | number hn hx => exact value_of_number hs hn hx
  | emptyArray h => simp [value, hs, h]
  | array h => exact value_of_array h
  | emptyObject h => simp [value, hs, h]
  | object h => exact value_of_object h

/-- **A value is read as the grammar says.** -/
theorem value_eq_some_iff : value depth cs = some (v, rest) ↔ Shape depth (skipSpace cs) v rest :=
  ⟨shape_of_value, value_of_shape⟩

/-- **A text is one value with white space around it.** -/
theorem parse?_eq_some_iff {text : String} :
    parse? text = some v ↔ ∃ rest, Shape maxDepth (skipSpace text.toList) v rest ∧ AllSpace rest := by
  unfold parse?
  constructor
  · intro h
    split at h
    · rename_i w rest hv
      split at h
      · rename_i hr
        cases h
        exact ⟨rest, value_eq_some_iff.mp hv, skipSpace_eq_nil_iff.mp hr⟩
      · contradiction
    · contradiction
  · rintro ⟨rest, hs, hr⟩
    simp [value_eq_some_iff.mpr hs, skipSpace_eq_nil_iff.mpr hr]

theorem isBlank_of_isSpace {c : Char} (h : isSpace c = true) : Text.isBlank c = true := by
  simp only [isSpace, Bool.or_eq_true, beq_iff_eq] at h
  rcases h with ((rfl | rfl) | rfl) | rfl <;> decide

theorem isSpace_of_isBlank {c : Char} (h : Text.isBlank c = false) : isSpace c = false := by
  rw [← Bool.not_eq_true]
  intro hs
  rw [isBlank_of_isSpace hs] at h
  contradiction

/-- The white space in front of a value is all that trimming drops there. -/
theorem trimStart_of_shape (h : Shape depth (skipSpace cs) v rest) :
    Text.trimStart cs = skipSpace cs := by
  obtain ⟨c, more, hc, hsolid, -⟩ := head_of_shape h
  obtain ⟨space, hspace, he⟩ := exists_append_skipSpace cs
  have hblank : ∀ d ∈ space, Text.isBlank d = true := fun d hd => isBlank_of_isSpace (hspace d hd)
  calc Text.trimStart cs = Text.trimStart (space ++ skipSpace cs) := by rw [← he]
    _ = Text.trimStart (skipSpace cs) := Text.trimStart_append_of_blank hblank _
    _ = skipSpace cs := by simp [hc, Text.trimStart_cons, hsolid]

/-- A text that holds a value is not blank. -/
theorem not_allBlank_of_parse? {text : String} (h : parse? text = some v) :
    ¬ ∀ c ∈ text.toList, Text.isBlank c = true := by
  intro hb
  obtain ⟨rest, hs, -⟩ := parse?_eq_some_iff.mp h
  obtain ⟨c, more, hc, -⟩ := head_of_shape hs
  have hnil := (trimStart_of_shape hs).symm.trans (Text.trimStart_eq_nil_iff.mpr hb)
  rw [hc] at hnil
  contradiction

end Stencil.Json
