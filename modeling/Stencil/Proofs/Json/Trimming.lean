import Stencil.Proofs.Json.Reading
import Stencil.Proofs.Text.Trim
import Stencil.Format

/-!
# White space around a JSON text

How a value is read does not depend on what stands behind it, so long as a word or a number cannot go on
there (`local_value`). A value ends with a quote, a bracket or a character of a word, so that trimming a text
leaves exactly the value it holds. White space of JSON around it is passed over; any other white space is no
part of a JSON text.

Main statements: `parse?_trimmed_of_parse?` and `parse?_of_parse?_trimmed`.
-/

namespace Stencil.Json

open Stencil.Text

/-- Whether what is read takes a part of the text that ends with no blank, and is read from that part in the
same way whatever stands behind it. -/
def Local {α : Type} (one : Read α) : Prop :=
  ∀ ⦃cs rest : List Char⦄ ⦃a : α⦄, one cs a rest →
    ∃ w c, cs = w ++ c :: rest ∧ isBlank c = false ∧ ∀ r, Stops r → one (w ++ c :: r) a r

variable {cs rest : List Char} {depth : Nat} {v : Json}

theorem stops_space_cons {space r : List Char} {c : Char} (hs : AllSpace space)
    (hc : isBareChar c = false) : Stops (space ++ c :: r) := by
  intro d hd
  cases space with
  | nil =>
      cases hd
      exact hc
  | cons e space =>
      cases hd
      exact isBareChar_of_isSpace (hs d List.mem_cons_self)

/-- What white space is passed over in front of a character, whatever stands behind that character. -/
theorem exists_of_skipSpace {c : Char} (h : skipSpace cs = c :: rest) :
    ∃ space, AllSpace space ∧ cs = space ++ c :: rest
      ∧ ∀ r, skipSpace (space ++ c :: r) = c :: r := by
  obtain ⟨space, hs, he⟩ := exists_append_skipSpace cs
  refine ⟨space, hs, by rw [← h, ← he], fun r => ?_⟩
  rw [skipSpace_append hs, skipSpace_of_not_isSpace (isSpace_of_skipSpace h)]

/-! ## Parts of a value -/

theorem local_body {s : List Char} (h : Body cs s rest) :
    ∃ w, cs = w ++ '"' :: rest ∧ ∀ r, Body (w ++ '"' :: r) s r := by
  induction h with
  | close => exact ⟨[], rfl, fun _ => .close⟩
  | char hl hq hb _ ih =>
      obtain ⟨w, rfl, hw⟩ := ih
      exact ⟨_ :: w, rfl, fun r => .char hl hq hb (hw r)⟩
  | letter hx _ ih =>
      obtain ⟨w, rfl, hw⟩ := ih
      exact ⟨_ :: _ :: w, rfl, fun r => .letter hx (hw r)⟩
  | code hn hs _ ih =>
      obtain ⟨w, rfl, hw⟩ := ih
      exact ⟨_ :: _ :: _ :: _ :: _ :: _ :: w, rfl, fun r => .code hn hs (hw r)⟩
  | pair hn hm hl hu _ ih =>
      obtain ⟨w, rfl, hw⟩ := ih
      exact ⟨_ :: _ :: _ :: _ :: _ :: _ :: _ :: _ :: _ :: _ :: _ :: _ :: w, rfl,
        fun r => .pair hn hm hl hu (hw r)⟩

theorem local_listed {α : Type} {one : Read α} (ho : Local one) (close : Char)
    (hb : isBareChar close = false) (hc : isBlank close = false) : Local (Listed one close) := by
  intro cs rest as h
  induction h with
  | last ha hs =>
      obtain ⟨w, c, rfl, -, hw⟩ := ho ha
      obtain ⟨space, hspace, rfl, hskip⟩ := exists_of_skipSpace hs
      refine ⟨w ++ c :: space, close, by simp, hc, fun r _ => ?_⟩
      rw [List.append_assoc]
      exact .last (hw _ (stops_space_cons hspace hb)) (hskip r)
  | more ha hs _ ih =>
      obtain ⟨w, c, rfl, -, hw⟩ := ho ha
      obtain ⟨space, hspace, rfl, hskip⟩ := exists_of_skipSpace hs
      obtain ⟨w', d, rfl, hd, hw'⟩ := ih
      refine ⟨w ++ c :: (space ++ ',' :: w'), d, by simp, hd, fun r hr => ?_⟩
      have he : w ++ c :: (space ++ ',' :: w') ++ d :: r = w ++ c :: (space ++ ',' :: (w' ++ d :: r)) := by
        simp
      rw [he]
      exact .more (hw _ (stops_space_cons hspace (by decide))) (hskip _) (hw' r hr)

theorem local_member {item : List Char → Option (Json × List Char)} (ho : Local (Item item)) :
    Local (Member item) := by
  rintro cs rest _ ⟨hq, hk, hc, hv⟩
  obtain ⟨space, -, rfl, hquote⟩ := exists_of_skipSpace hq
  obtain ⟨w, rfl, hbody⟩ := local_body hk
  obtain ⟨gap, -, rfl, hcolon⟩ := exists_of_skipSpace hc
  obtain ⟨w', d, rfl, hd, hitem⟩ := ho hv
  refine ⟨space ++ '"' :: (w ++ '"' :: (gap ++ ':' :: w')), d, by simp, hd, fun r hr => ?_⟩
  have he : space ++ '"' :: (w ++ '"' :: (gap ++ ':' :: w')) ++ d :: r
      = space ++ '"' :: (w ++ '"' :: (gap ++ ':' :: (w' ++ d :: r))) := by simp
  rw [he]
  exact .intro (hquote _) (hbody _) (hcolon _) (hitem r hr)

/-- What ends with a character of a word or a number ends with no blank. -/
theorem exists_last_of_bare {w : List Char} (hw : Bare w) (rest : List Char) :
    ∃ front c, w ++ rest = front ++ c :: rest ∧ isBlank c = false ∧ w = front ++ [c] := by
  obtain ⟨c, more, he, -⟩ := hw.head
  have hne : w ≠ [] := by simp [he]
  refine ⟨w.dropLast, w.getLast hne, ?_, isBlank_of_isBareChar (hw.char _ (List.getLast_mem hne)),
    (List.dropLast_concat_getLast hne).symm⟩
  conv => lhs; rw [← List.dropLast_concat_getLast hne]
  simp

/-! ## Values -/

theorem local_shape (ho : ∀ d, depth = d + 1 → Local (Item (value d))) : Local (Shape depth) := by
  intro cs rest v h
  cases h with
  | string h =>
      obtain ⟨w, rfl, hw⟩ := local_body h
      exact ⟨'"' :: w, '"', rfl, by decide, fun r _ => .string (hw r)⟩
  | word h =>
      obtain ⟨front, c, he, hc, rfl⟩ := exists_last_of_bare (bare_of_mem_words h) rest
      refine ⟨front, c, he, hc, fun r _ => ?_⟩
      rw [show front ++ c :: r = front ++ [c] ++ r by simp]
      exact .word h
  | number hn hx =>
      -- A number is the one value that can be longer with something else behind it.
      obtain ⟨w, rfl, hs⟩ := spelled_of_numerals? hn
      obtain ⟨front, c, he, hc, rfl⟩ := exists_last_of_bare (bare_of_spelled hs) rest
      refine ⟨front, c, he, hc, fun r hr => ?_⟩
      rw [show front ++ c :: r = front ++ [c] ++ r by simp]
      exact .number (numerals?_of_spelled hs hr) hx
  | emptyArray h =>
      obtain ⟨space, -, rfl, hskip⟩ := exists_of_skipSpace h
      exact ⟨'[' :: space, ']', rfl, by decide, fun r _ => .emptyArray (hskip r)⟩
  | array h =>
      obtain ⟨w, c, rfl, hc, hw⟩ := local_listed (ho _ rfl) ']' (by decide) (by decide) h
      exact ⟨'[' :: w, c, rfl, hc, fun r hr => .array (hw r hr)⟩
  | emptyObject h =>
      obtain ⟨space, -, rfl, hskip⟩ := exists_of_skipSpace h
      exact ⟨'\x7b' :: space, '\x7d', rfl, by decide, fun r _ => .emptyObject (hskip r)⟩
  | object h =>
      obtain ⟨w, c, rfl, hc, hw⟩ := local_listed (local_member (ho _ rfl)) '\x7d' (by decide) (by decide) h
      exact ⟨'\x7b' :: w, c, rfl, hc, fun r hr => .object (hw r hr)⟩

theorem local_item (ho : Local (Shape depth)) : Local (Item (value depth)) := by
  intro cs rest v h
  have hs := value_eq_some_iff.mp h
  obtain ⟨space, hspace, he⟩ := exists_append_skipSpace cs
  obtain ⟨first, more, hfirst, hsolid, -⟩ := head_of_shape hs
  obtain ⟨w, c, hw, hc, hlocal⟩ := ho hs
  refine ⟨space ++ w, c, by rw [he, hw, List.append_assoc], hc, fun r hr => value_eq_some_iff.mpr ?_⟩
  have hstart : skipSpace (w ++ c :: r) = w ++ c :: r := by
    obtain ⟨d, ds, hd, hblank, -⟩ := head_of_shape (hlocal r hr)
    rw [hd]
    exact skipSpace_of_not_isSpace (isSpace_of_isBlank hblank) ds
  rw [List.append_assoc, skipSpace_append hspace, hstart]
  exact hlocal r hr

/-- **A value is read from its own part of the text**, whatever stands behind it. -/
theorem local_value (depth : Nat) : Local (Shape depth) := by
  induction depth with
  | zero => exact local_shape fun _ h => by contradiction
  | succ depth ih =>
      refine local_shape fun d hd => ?_
      obtain rfl := Nat.succ.inj hd
      exact local_item ih

/-! ## Texts -/

/-- What trimming cuts off a text, when it is white space of JSON. -/
def SpaceAround (cs : List Char) : Prop :=
  ∃ lead trail, cs = lead ++ trim cs ++ trail ∧ AllSpace lead ∧ AllSpace trail

theorem trim_of_shape (h : Shape depth (skipSpace cs) v rest) (hr : AllSpace rest) :
    SpaceAround cs ∧ Shape depth (trim cs) v [] := by
  obtain ⟨space, hspace, he⟩ := exists_append_skipSpace cs
  obtain ⟨first, more, hfirst, hsolid, -⟩ := head_of_shape h
  obtain ⟨w, c, hw, hc, hlocal⟩ := local_value depth h
  -- A value starts and ends with solid characters, so that nothing of it is trimmed.
  have hstarts : StartsSolid (w ++ [c]) := by
    intro d hd
    have hhead : (w ++ [c]).head? = (skipSpace cs).head? := by
      rw [hw]
      cases w <;> rfl
    rw [hhead, hfirst] at hd
    cases hd
    exact hsolid
  have hends : EndsSolid (w ++ [c]) := by
    intro d hd
    rw [List.getLast?_concat] at hd
    cases hd
    exact hc
  have hcut : cs = space ++ (w ++ [c]) ++ rest := by
    calc cs = space ++ skipSpace cs := he
      _ = space ++ (w ++ c :: rest) := by rw [hw]
      _ = space ++ (w ++ [c]) ++ rest := by simp
  have htrim : trim cs = w ++ [c] :=
    trim_eq_iff.mpr ⟨space, rest, hcut, fun d hd => isBlank_of_isSpace (hspace d hd),
      fun d hd => isBlank_of_isSpace (hr d hd), hstarts, hends⟩
  have hnil : Stops [] := fun d hd => by cases hd
  exact ⟨⟨space, rest, by rw [htrim]; exact hcut, hspace, hr⟩, htrim ▸ hlocal [] hnil⟩

theorem skipSpace_trim (cs : List Char) : skipSpace (trim cs) = trim cs := by
  cases hc : trim cs with
  | nil => rfl
  | cons c more =>
      have hhead : (trim cs).head? = some c := by rw [hc]; rfl
      exact skipSpace_of_not_isSpace (isSpace_of_isBlank (head?_trim hhead)) more

/-- **What a text holds is what the trimmed text holds**, and the white space around it is JSON's. -/
theorem parse?_trimmed_of_parse? {text : String} (h : parse? text = some v) :
    SpaceAround text.toList ∧ parse? (trimmed text) = some v := by
  obtain ⟨rest, hs, hr⟩ := parse?_eq_some_iff.mp h
  obtain ⟨hspace, hshape⟩ := trim_of_shape hs hr
  refine ⟨hspace, parse?_eq_some_iff.mpr ⟨[], ?_, allSpace_nil⟩⟩
  rw [toList_trimmed, skipSpace_trim]
  exact hshape

/-- **White space of JSON around a text makes no difference.** -/
theorem parse?_of_parse?_trimmed {text : String} (ha : SpaceAround text.toList)
    (h : parse? (trimmed text) = some v) : parse? text = some v := by
  obtain ⟨rest, hs, hr⟩ := parse?_eq_some_iff.mp h
  rw [toList_trimmed] at hs
  obtain ⟨-, hshape⟩ := trim_of_shape hs hr
  rw [trim_trim] at hshape
  obtain ⟨lead, trail, he, hl, ht⟩ := ha
  obtain ⟨w, c, hw, -, hlocal⟩ := local_value _ hshape
  have hstops : Stops trail := fun d hd => isBareChar_of_isSpace (ht d (List.mem_of_head? hd))
  have hcs : skipSpace text.toList = w ++ c :: trail := by
    obtain ⟨d, more, hd, hblank, -⟩ := head_of_shape hshape
    have hcore : w ++ c :: trail = trim text.toList ++ trail := by rw [hw]; simp
    rw [he, List.append_assoc, skipSpace_append hl, hcore, hd]
    exact skipSpace_of_not_isSpace (isSpace_of_isBlank hblank) (more ++ trail)
  exact parse?_eq_some_iff.mpr ⟨trail, hcs ▸ hlocal trail hstops, ht⟩

end Stencil.Json
