import Stencil.Json.Reader

/-!
# What stands between the quotes of a JSON string

A string is read character by character, and each way to write a character is one constructor of `Body`.

Main statement: `stringBody_eq_some_iff`.
-/

namespace Stencil.Json

/-- How one thing is read from the front of a text, and what is left of the text. -/
abbrev Read (α : Type) := List Char → α → List Char → Prop

/-- Whether a number is one half of a code point above the basic plane. -/
def IsSurrogate (n : Nat) : Prop := 0xD800 ≤ n ∧ n < 0xE000

/-- The characters of a string up to its closing quote. -/
inductive Body : Read (List Char) where
  | close {rest : List Char} : Body ('"' :: rest) [] rest
  | char {c : Char} {cs s rest : List Char} (hl : 0x20 ≤ c.toNat) (hq : c ≠ '"') (hb : c ≠ '\\')
      (h : Body cs s rest) : Body (c :: cs) (c :: s) rest
  | letter {c x : Char} {cs s rest : List Char} (hx : escapeLetter? c = some x) (h : Body cs s rest) :
      Body ('\\' :: c :: cs) (x :: s) rest
  | code {a b c d : Char} {n : Nat} {cs s rest : List Char} (hn : hex4? a b c d = some n)
      (hs : ¬ IsSurrogate n) (h : Body cs s rest) :
      Body ('\\' :: 'u' :: a :: b :: c :: d :: cs) (Char.ofNat n :: s) rest
  | pair {a b c d e f g i : Char} {n m : Nat} {cs s rest : List Char} (hn : hex4? a b c d = some n)
      (hm : hex4? e f g i = some m) (hl : 0xD800 ≤ n ∧ n < 0xDC00) (hu : 0xDC00 ≤ m ∧ m < 0xE000)
      (h : Body cs s rest) :
      Body ('\\' :: 'u' :: a :: b :: c :: d :: '\\' :: 'u' :: e :: f :: g :: i :: cs)
        (Char.ofNat (0x10000 + (n - 0xD800) * 0x400 + (m - 0xDC00)) :: s) rest

theorem body_of_stringBody {cs s rest : List Char} (h : stringBody cs = some (s, rest)) :
    Body cs s rest := by
  fun_induction stringBody cs generalizing s rest with
  | case1 | case3 | case4 | case6 | case7 | case8 | case10 | case12 => contradiction
  | case2 cs =>
      cases h
      exact .close
  | case5 a b c d n hn hl e f g i cs m hm hu ih =>
      obtain ⟨⟨t, r⟩, ht, h⟩ := Option.map_eq_some_iff.mp h
      cases h
      exact .pair hn hm hl hu (ih ht)
  | case9 a b c d cs n hn hl hu ih =>
      obtain ⟨⟨t, r⟩, ht, h⟩ := Option.map_eq_some_iff.mp h
      cases h
      exact .code hn (fun hs => by unfold IsSurrogate at hs; omega) (ih ht)
  | case11 c cs hu x hx ih =>
      obtain ⟨⟨t, r⟩, ht, h⟩ := Option.map_eq_some_iff.mp h
      cases h
      exact .letter hx (ih ht)
  | case13 c cs hq _ _ hc ih =>
      obtain ⟨⟨t, r⟩, ht, h⟩ := Option.map_eq_some_iff.mp h
      cases h
      exact .char (Nat.le_of_not_gt fun hl => hc (.inl hl)) hq (fun hb => hc (.inr hb)) (ih ht)

theorem stringBody_of_body {cs s rest : List Char} (h : Body cs s rest) :
    stringBody cs = some (s, rest) := by
  induction h with
  | close => rfl
  | char hl hq hb h ih =>
      unfold stringBody
      simp [hb, Nat.not_lt.mpr hl, ih]
  | letter hx h ih =>
      rename_i c x cs s rest
      have hu : c ≠ 'u' := by rintro rfl; simp [escapeLetter?] at hx
      unfold stringBody
      simp [hx, hu, ih]
  | code hn hs h ih =>
      rename_i n cs s rest
      have h1 : ¬ (0xD800 ≤ n ∧ n < 0xDC00) := fun h => hs ⟨h.1, by omega⟩
      have h2 : ¬ (0xDC00 ≤ n ∧ n < 0xE000) := fun h => hs ⟨by omega, h.2⟩
      unfold stringBody
      simp [hn, h1, h2, ih]
  | pair hn hm hl hu h ih =>
      unfold stringBody
      simp [hn, hm, hl, hu, ih]

/-- **A string is read as it is written.** -/
theorem stringBody_eq_some_iff {cs s rest : List Char} :
    stringBody cs = some (s, rest) ↔ Body cs s rest := ⟨body_of_stringBody, stringBody_of_body⟩

end Stencil.Json
