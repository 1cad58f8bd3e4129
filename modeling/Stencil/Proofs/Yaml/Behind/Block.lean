import Stencil.Proofs.Yaml.Behind.Flow

/-!
# Block scalars in front of fillers

A block scalar that runs to the end of a text has the fillers behind the text as further lines. It is the same
with them if they are line ends that it drops (`Chomping.Drops`).

Main statement: `goes_blockScalar`.
-/

namespace Stencil.Yaml

open Stencil.Text

variable {cs t : List Char} {c : Char}

/-! ## The end of a line -/

/-- What stands behind the break that a text starts with. -/
def afterBreak? : List Char → Option (List Char)
  | [] => some []
  | '\r' :: '\n' :: rest => some rest
  | c :: rest => if isBreak c then some rest else none

/-- Drops the comment that a text starts with. -/
def skipComment (cs : List Char) : List Char :=
  if cs.head? == some '#' then cs.dropWhile (!isBreak ·) else cs

theorem suffix_skipComment (cs : List Char) : skipComment cs <:+ cs := by
  unfold skipComment
  split
  · exact List.dropWhile_suffix _
  · exact List.suffix_refl _

theorem lineEnd?_eq (cs : List Char) : lineEnd? cs = afterBreak? (skipComment (skipBlanks cs)) := rfl

theorem afterBreak?_append (h : EndsSolid cs) (hne : cs ≠ []) (t : List Char) :
    afterBreak? (cs ++ t) = (afterBreak? cs).map (· ++ t) := by
  match cs, hne with
  | [c], _ =>
      have hc : isBreak c = false := by
        rw [← Bool.not_eq_true]
        intro hb
        exact ne_nil_of_isGap h (by simp [isGap, hb]) rfl
      have hr : c ≠ '\r' := by
        rintro rfl
        exact absurd hc (by decide)
      simp [afterBreak?, hc, hr]
  | c :: d :: cs, _ =>
      by_cases hcd : c = '\r' ∧ d = '\n'
      · obtain ⟨rfl, rfl⟩ := hcd
        rfl
      · have hpair : ∀ rest, afterBreak? (c :: d :: rest) = if isBreak c then some (d :: rest) else none := by
          intro rest
          rw [afterBreak?]
          rintro more rfl he
          exact hcd ⟨rfl, (List.cons.inj he).1⟩
        rw [List.cons_append, List.cons_append, hpair, hpair]
        split <;> rfl

theorem exists_afterBreak? (h : ∀ c, cs.head? = some c → isBreak c = true) :
    ∃ rest, rest <:+ cs ∧ afterBreak? cs = some rest := by
  unfold afterBreak?
  split
  · exact ⟨[], List.suffix_refl [], rfl⟩
  · exact ⟨_, (List.suffix_cons _ _).trans (List.suffix_cons _ _), rfl⟩
  · rw [if_pos (h _ rfl)]
    exact ⟨_, List.suffix_cons _ _, rfl⟩

/-- Where dropping stops, the condition fails. -/
theorem of_head?_dropWhile {p : Char → Bool} (hc : (cs.dropWhile p).head? = some c) : p c = false := by
  have h := List.head?_dropWhile_not p cs
  rwa [hc] at h

/-- What is left of fillers without the blanks in front is what is left of them from the first line end on. -/
theorem skipBlanks_of_filler (ht : AllFiller t) : skipBlanks t = t.dropWhile (!isBreak ·) := by
  induction t with
  | nil => rfl
  | cons c t ih =>
      obtain ⟨hc, ht⟩ := List.forall_mem_cons.mp ht
      have hblank : isBlank c = !isBreak c :=
        (beq_iff_eq.mp (of_isGap (p := fun c => isBlank c == !isBreak c) (by decide) hc) :)
      show (c :: t).dropWhile isBlank = _
      rw [List.dropWhile_cons, List.dropWhile_cons, hblank]
      split
      · exact ih ht
      · rfl

theorem exists_afterBreak?_dropWhile (htab : TabsFirst t) :
    ∃ rest, rest <:+ t ∧ '\t' ∉ rest ∧ afterBreak? (t.dropWhile (!isBreak ·)) = some rest := by
  have hbreak : ∀ c, (t.dropWhile (!isBreak ·)).head? = some c → isBreak c = true := fun c hc => by
    simpa using of_head?_dropWhile hc
  obtain ⟨rest, hr, he⟩ := exists_afterBreak? hbreak
  exact ⟨rest, hr.trans (List.dropWhile_suffix _), fun h => htab (hr.subset h), he⟩

theorem exists_afterBreak?_skipBlanks (ht : AllFiller t) (htab : TabsFirst t) :
    ∃ rest, rest <:+ t ∧ '\t' ∉ rest ∧ afterBreak? (skipComment (skipBlanks t)) = some rest := by
  have hcomment : skipComment (skipBlanks t) = skipBlanks t := by
    unfold skipComment
    rw [if_neg]
    rw [beq_iff_eq]
    intro hc
    exact ne_of_isGap (allFiller_skipBlanks ht _ (List.mem_of_head? hc)) (d := '#') (by decide) rfl
  rw [hcomment, skipBlanks_of_filler ht]
  exact exists_afterBreak?_dropWhile htab

/-- A comment ends with its line, or with the text. -/
theorem skipComment_append (hne : cs ≠ []) (t : List Char) :
    skipComment cs ≠ [] ∧ skipComment (cs ++ t) = skipComment cs ++ t
      ∨ skipComment cs = [] ∧ skipComment (cs ++ t) = t.dropWhile (!isBreak ·) := by
  obtain ⟨c, more, rfl⟩ := List.exists_cons_of_ne_nil hne
  unfold skipComment
  rw [List.head?_append, List.head?_cons, Option.some_or]
  split
  · rw [List.dropWhile_append]
    by_cases hd : (c :: more).dropWhile (!isBreak ·) = []
    · exact .inr ⟨hd, by rw [hd]; rfl⟩
    · exact .inl ⟨hd, if_neg (by simpa [List.isEmpty_iff] using hd)⟩
  · exact .inl ⟨hne, rfl⟩

theorem goes_lineEnd? (ht : AllFiller t) (htab : TabsFirst t) (h : EndsSolid cs) :
    Goes t Eq ((lineEnd? cs).map fun rest => ((), rest)) ((lineEnd? (cs ++ t)).map fun rest => ((), rest)) := by
  rw [lineEnd?_eq, lineEnd?_eq]
  by_cases hne : cs = []
  · subst hne
    obtain ⟨rest, hr, hrest, he⟩ := exists_afterBreak?_skipBlanks ht htab
    rw [List.nil_append, he]
    exact .atEnd rfl hr hrest
  rw [skipBlanks_append h hne]
  have hsolid := h.of_suffix (suffix_skipBlanks cs)
  rcases skipComment_append (skipBlanks_ne_nil h hne) t with ⟨hskip, he⟩ | ⟨hnil, he⟩
  · rw [he, afterBreak?_append (hsolid.of_suffix (suffix_skipComment _)) hskip]
    cases afterBreak? (skipComment (skipBlanks cs)) with
    | none => exact .refused
    | some rest => exact .inside () rest
  · rw [hnil, he]
    obtain ⟨rest, hr, hrest, he⟩ := exists_afterBreak?_dropWhile htab
    rw [he]
    exact .atEnd rfl hr hrest

/-! ## Block scalars -/

theorem increment?_append (ht : AllFiller t) (cs : List Char) :
    increment? (cs ++ t) = (increment? cs).map (extend t) := by
  cases cs with
  | cons c cs =>
      simp only [List.cons_append, increment?]
      repeat' split
      all_goals rfl
  | nil =>
      cases t with
      | nil => rfl
      | cons d t =>
          have hd := ht d List.mem_cons_self
          have hdigit : d.isDigit = false := by
            simpa using of_isGap (p := fun c => !c.isDigit) (by decide) hd
          have hzero : d ≠ '0' := ne_of_isGap hd (by decide)
          show increment? (d :: t) = some (none, d :: t)
          simp [increment?, hzero, hdigit]

theorem chomping?_of_isGap (h : isGap c = true) : chomping? c = none := by
  unfold chomping?
  rw [if_neg (ne_of_isGap h (by decide)), if_neg (ne_of_isGap h (by decide))]

theorem blockSigns?_append (ht : AllFiller t) (cs : List Char) :
    blockSigns? (cs ++ t) = (blockSigns? cs).map (extend t) := by
  cases cs with
  | nil =>
      cases t with
      | nil => rfl
      | cons d t =>
          have hinc := increment?_append ht []
          rw [List.nil_append] at hinc
          show blockSigns? (d :: t) = some (⟨.clip, none⟩, d :: t)
          simp only [blockSigns?, chomping?_of_isGap (ht d List.mem_cons_self), hinc]
          rfl
  | cons c cs =>
      rw [List.cons_append, blockSigns?, blockSigns?]
      cases chomping? c with
      | some chomping =>
          simp only [increment?_append ht, Option.map_map]
          rfl
      | none =>
          simp only [← List.cons_append, increment?_append ht]
          -- Behind an increment there may be nothing left, where the text alone has no second sign, and neither
          -- has a filler.
          rcases increment? (c :: cs) with _ | ⟨_ | n, _ | ⟨d, rest⟩⟩
          · rfl
          · rfl
          · rfl
          · cases t with
            | nil => rfl
            | cons e t =>
                simp only [Option.map_some, extend, List.nil_append, chomping?_of_isGap (ht e List.mem_cons_self)]
          · simp only [Option.map_some, extend, List.cons_append]
            split <;> rfl

/-- The indentation is seen before the end of a text that holds more than fillers. -/
theorem widestIndent?_append (h : EndsSolid cs) (hne : cs ≠ []) (t : List Char) (column widest : Nat) :
    widestIndent? column widest (cs ++ t) = widestIndent? column widest cs := by
  induction cs generalizing column widest with
  | nil => exact absurd rfl hne
  | cons c cs ih =>
      have hmore : isGap c = true → cs ≠ [] := ne_nil_of_isGap h
      rw [List.cons_append]
      unfold widestIndent?
      rw [returnsBeforeNewline_append h]
      split
      · rename_i hc
        exact ih h.of_cons (hmore (by rw [hc]; rfl)) _ _
      split
      · rfl
      split
      · rename_i hr
        simp only [returnsBeforeNewline, Bool.and_eq_true, beq_iff_eq] at hr
        exact ih h.of_cons (hmore (by simp [isGap, isBreak, hr])) _ _
      split
      · rename_i hb
        exact ih h.of_cons (hmore (by simp [isGap, hb])) _ _
      · rfl

theorem blockLines_cons (folded : Bool) (chomping : Chomping) (indent : Nat) (place : BlockPlace) (c : Char)
    (cs : List Char) :
    blockLines folded chomping indent place (c :: cs) =
      if returnsBeforeNewline c cs then blockLines folded chomping indent place cs
      else
        match place with
        | .line startsBlank =>
            if isBreak c then
              blockLines folded chomping indent (.between startsBlank (some (breakChar c)) [] 0) cs
            else
              (blockLines folded chomping indent place cs).map fun (s, r) => (c :: s, r)
        | .between startsBlank first more column =>
            if column < indent ∧ c = ' ' then
              blockLines folded chomping indent (.between startsBlank first more (column + 1)) cs
            else if column < indent ∧ c = '\t' then none
            else if isBreak c then
              blockLines folded chomping indent
                (.between startsBlank first (more ++ [breakChar c]) 0) cs
            else if column < indent then some (blockTail chomping first more, c :: cs)
            else
              (blockLines folded chomping indent (.line (isBlank c)) cs).map fun (s, r) =>
                (blockGap folded startsBlank (isBlank c) first more ++ c :: s, r) :=
  blockLines.eq_def folded chomping indent place (c :: cs)

/-- Whether what stands behind a block scalar adds nothing to it. -/
def Silent (t : List Char) (folded : Bool) (chomping : Chomping) (indent : Nat) : Prop :=
  ∀ place, blockLines folded chomping indent place t = blockLines folded chomping indent place []

/-- **A block scalar that ends inside a text** is the same with fillers behind the text, and so is one that runs
to the end of the text when they add nothing to it. -/
theorem goes_blockLines (h : EndsSolid cs) (folded : Bool) (chomping : Chomping) (indent : Nat)
    (place : BlockPlace)
    (hs : (∃ text, blockLines folded chomping indent place cs = some (text, [])) →
      Silent t folded chomping indent) :
    Goes t Eq (blockLines folded chomping indent place cs) (blockLines folded chomping indent place (cs ++ t)) := by
  fun_induction blockLines folded chomping indent place cs with
  | case1 startsBlank =>
      -- The scalar runs to the end of the text, so that the fillers are read as well.
      rw [List.nil_append, hs ⟨_, rfl⟩]
      exact goes_nil rfl
  | case2 startsBlank first more column =>
      rw [List.nil_append, hs ⟨_, rfl⟩]
      exact goes_nil rfl
  | case3 place c cs hr ih =>
      rw [List.cons_append, blockLines_cons, returnsBeforeNewline_append h, if_pos hr]
      exact ih h.of_cons hs
  | case4 c cs hr startsBlank hb ih =>
      rw [List.cons_append, blockLines_cons, returnsBeforeNewline_append h, if_neg hr]
      simp only [if_pos hb]
      exact ih h.of_cons hs
  | case5 c cs hr startsBlank hb ih =>
      rw [List.cons_append, blockLines_cons, returnsBeforeNewline_append h, if_neg hr]
      simp only [if_neg hb]
      -- If the rest runs to the end of the text, so does the scalar that is longer by this character.
      refine (ih h.of_cons fun hend => hs ?_).map (c :: ·) fun a b hab => by rw [hab]
      obtain ⟨text, he⟩ := hend
      exact ⟨c :: text, by rw [he]; rfl⟩
  | case6 c cs hr startsBlank first more column hc ih =>
      rw [List.cons_append, blockLines_cons, returnsBeforeNewline_append h, if_neg hr]
      simp only [if_pos hc]
      exact ih h.of_cons hs
  | case7 c cs hr startsBlank first more column hc htab =>
      rw [List.cons_append, blockLines_cons, returnsBeforeNewline_append h, if_neg hr]
      simp only [if_neg hc, if_pos htab]
      exact .refused
  | case8 c cs hr startsBlank first more column hc htab hb ih =>
      rw [List.cons_append, blockLines_cons, returnsBeforeNewline_append h, if_neg hr]
      simp only [if_neg hc, if_neg htab, if_pos hb]
      exact ih h.of_cons hs
  | case9 c cs hr startsBlank first more column hc htab hb hcolumn =>
      rw [List.cons_append, blockLines_cons, returnsBeforeNewline_append h, if_neg hr]
      simp only [if_neg hc, if_neg htab, if_neg hb, if_pos hcolumn]
      exact .inside _ (c :: cs)
  | case10 c cs hr startsBlank first more column hc htab hb hcolumn ih =>
      rw [List.cons_append, blockLines_cons, returnsBeforeNewline_append h, if_neg hr]
      simp only [if_neg hc, if_neg htab, if_neg hb, if_neg hcolumn]
      refine (ih h.of_cons fun hend => hs ?_).map
        (blockGap folded startsBlank (isBlank c) first more ++ c :: ·) fun a b hab => by rw [hab]
      obtain ⟨text, he⟩ := hend
      exact ⟨blockGap folded startsBlank (isBlank c) first more ++ c :: text, by rw [he]; rfl⟩

/-- Line ends add nothing to a block scalar that drops those behind its last line. -/
theorem silent_of_breaks (ht : ∀ c ∈ t, isBreak c = true) (folded : Bool) (indent : Nat) :
    Silent t folded .strip indent := by
  have hstrip : ∀ place, blockLines folded .strip indent place [] = some ([], []) := by
    intro place
    cases place <;> rfl
  intro place
  rw [hstrip]
  induction t generalizing place with
  | nil => exact hstrip place
  | cons c t ih =>
      obtain ⟨hc, ht⟩ := List.forall_mem_cons.mp ht
      have hspace : c ≠ ' ' := by
        rintro rfl
        exact absurd hc (by decide)
      have htab : c ≠ '\t' := by
        rintro rfl
        exact absurd hc (by decide)
      rw [blockLines_cons]
      split
      · exact ih ht place
      · cases place with
        | line startsBlank =>
            exact ih ht _
        | between startsBlank first more column =>
            simp only [hspace, htab, and_false, if_false]
            exact ih ht _

/-- The indentation of the lines of a block scalar. -/
def blockIndent? (margin : Nat) (header : BlockHeader) (cs : List Char) : Option Nat :=
  match header.increment with
  | some n => some (margin - 1 + n)
  | none => (widestIndent? 0 0 cs).map fun widest => max (max widest margin) 1

/-- The part of a block scalar behind the line of its header. -/
def blockBody (folded : Bool) (margin : Nat) (header : BlockHeader) (cs : List Char) :
    Option (List Char × List Char) :=
  (blockIndent? margin header cs).bind fun indent =>
    blockLines folded header.chomping indent (.between false none [] 0) cs

theorem blockScalar_eq (folded : Bool) (margin : Nat) (cs : List Char) :
    blockScalar folded margin cs = (blockSigns? cs).bind fun (header, rest) =>
      (lineEnd? rest).bind (blockBody folded margin header) := by
  unfold blockScalar blockBody blockIndent?
  congr 1
  funext ⟨header, rest⟩
  show (lineEnd? rest).bind _ = _
  congr 1
  funext behind
  cases header.increment <;> rfl

theorem widestIndent?_of_breaks (ht : ∀ c ∈ t, isBreak c = true) : widestIndent? 0 0 t = some 0 := by
  induction t with
  | nil => rfl
  | cons c t ih =>
      obtain ⟨hc, ht⟩ := List.forall_mem_cons.mp ht
      have hspace : c ≠ ' ' := by
        rintro rfl
        exact absurd hc (by decide)
      have htab : c ≠ '\t' := by
        rintro rfl
        exact absurd hc (by decide)
      simp only [widestIndent?, hspace, htab, hc, if_false, Nat.max_self, ih ht, ite_self]

/-- A header without lines is an empty scalar. -/
theorem exists_blockBody_nil (folded : Bool) (margin : Nat) (header : BlockHeader) :
    ∃ text, blockBody folded margin header [] = some (text, []) := by
  obtain ⟨chomping, increment⟩ := header
  cases increment <;> exact ⟨_, rfl⟩

theorem blockBody_of_breaks (ht : ∀ c ∈ t, isBreak c = true) (folded : Bool) (margin : Nat)
    {header : BlockHeader} (hstrip : header.chomping = .strip) :
    blockBody folded margin header t = blockBody folded margin header [] := by
  have hindent : blockIndent? margin header t = blockIndent? margin header [] := by
    unfold blockIndent?
    rw [widestIndent?_of_breaks ht]
    rfl
  unfold blockBody
  rw [hindent]
  congr 1
  funext indent
  rw [hstrip]
  exact silent_of_breaks ht folded indent _

/-- Whether what stands behind a block scalar that runs to the end of the text is no part of it: nothing stands
there, or line ends that the scalar drops. -/
def Chomping.Drops (chomping : Chomping) (t : List Char) : Prop :=
  t = [] ∨ chomping = .strip ∧ ∀ c ∈ t, isBreak c = true

theorem silent_of_drops {chomping : Chomping} (hd : chomping.Drops t) (folded : Bool) (indent : Nat) :
    Silent t folded chomping indent := by
  rcases hd with rfl | ⟨rfl, hb⟩
  · exact fun _ => rfl
  · exact silent_of_breaks hb folded indent

theorem goes_blockBody (h : EndsSolid cs) (folded : Bool) (margin : Nat) (header : BlockHeader)
    (hd : (∃ text, blockBody folded margin header cs = some (text, [])) → header.chomping.Drops t) :
    Goes t Eq (blockBody folded margin header cs) (blockBody folded margin header (cs ++ t)) := by
  by_cases hne : cs = []
  · subst hne
    obtain ⟨text, he⟩ := exists_blockBody_nil folded margin header
    rw [List.nil_append]
    rcases hd ⟨text, he⟩ with rfl | ⟨hstrip, hb⟩
    · rw [he]
      exact goes_nil rfl
    · rw [blockBody_of_breaks hb folded margin hstrip, he]
      exact goes_nil rfl
  · have hindent : blockIndent? margin header (cs ++ t) = blockIndent? margin header cs := by
      unfold blockIndent?
      rw [widestIndent?_append h hne]
    unfold blockBody at *
    rw [hindent]
    cases hi : blockIndent? margin header cs with
    | none => exact .refused
    | some indent =>
        rw [hi] at hd
        exact goes_blockLines h folded header.chomping indent _ fun hend =>
          silent_of_drops (hd hend) folded indent

theorem goes_behindHeader {behind behind' : Option (List Char)}
    (hend : Goes t Eq (behind.map fun rest => ((), rest)) (behind'.map fun rest => ((), rest)))
    (hsolid : ∀ rest, behind = some rest → EndsSolid rest) (folded : Bool) (margin : Nat) (header : BlockHeader)
    (hd : (∃ text, behind.bind (blockBody folded margin header) = some (text, [])) → header.chomping.Drops t) :
    Goes t Eq (behind.bind (blockBody folded margin header)) (behind'.bind (blockBody folded margin header)) := by
  cases behind with
  | none =>
      cases behind' with
      | none => exact .refused
      | some rest' => cases hend
  | some rest =>
      cases behind' with
      | none => cases hend
      | some rest' =>
          simp only [Option.map_some, Option.bind_some] at hend hd ⊢
          cases hend with
          | inside => exact goes_blockBody (hsolid rest rfl) folded margin header hd
          | atEnd _ hr =>
              -- The text ends with the header. What is behind it may add line ends to the scalar, unless they
              -- are dropped.
              obtain ⟨text, he⟩ := exists_blockBody_nil folded margin header
              have hbody : blockBody folded margin header rest' = blockBody folded margin header [] := by
                rcases hd ⟨text, he⟩ with rfl | ⟨hstrip, hb⟩
                · rw [List.suffix_nil.mp hr]
                · exact blockBody_of_breaks (fun c hc => hb c (hr.subset hc)) folded margin hstrip
              rw [hbody, he]
              exact goes_nil rfl

/-- **A block scalar is the same with fillers behind the text**, unless it runs to the end of the text and does
not drop them. -/
theorem goes_blockScalar (ht : AllFiller t) (htab : TabsFirst t) (h : EndsSolid cs) (folded : Bool) (margin : Nat)
    (hd : ∀ header rest, blockSigns? cs = some (header, rest) →
      (∃ text, blockScalar folded margin cs = some (text, [])) → header.chomping.Drops t) :
    Goes t Eq (blockScalar folded margin cs) (blockScalar folded margin (cs ++ t)) := by
  rw [blockScalar_eq folded margin cs] at hd ⊢
  rw [blockScalar_eq, blockSigns?_append ht]
  cases hsigns : blockSigns? cs with
  | none => exact .refused
  | some found =>
      obtain ⟨header, rest⟩ := found
      have hrest : EndsSolid rest := h.of_suffix (leaves_blockSigns? cs hsigns)
      refine goes_behindHeader (goes_lineEnd? ht htab hrest) (fun behind hb => hrest.of_suffix (suffix_of_lineEnd? hb))
        folded margin header fun hend => hd header rest hsigns ?_
      rw [hsigns]
      exact hend

end Stencil.Yaml
