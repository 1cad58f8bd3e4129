import Stencil.Proofs.KeyValue.Reading

/-!
# How a text of assignments starts

A text is read as assignments only if an equals sign stands in it, and if the first of its lines that is not
blank is a comment or starts with a letter.

Main statement: `head_of_read`.
-/

namespace Stencil.KeyValue

open Stencil.Text

theorem ne_of_keyHead {c d : Char} (hc : KeyHead c) (hd : isKeyStart d = false) : c ≠ d := by
  rintro rfl
  rw [isKeyStart_iff.mpr hc] at hd
  contradiction

/-- A line that assigns starts with a letter, be it of the key or of the word in front of it. -/
theorem exists_trimStart_of_assigns {line key rest : List Char} (h : Assigns line key rest)
    (hk : IsKey key) : ∃ c cs, trimStart line = c :: cs ∧ KeyHead c := by
  obtain ⟨before, hs, -, lead, trail, rfl, hl, -, hsolid, -⟩ := h
  obtain ⟨c, name, rfl, hc, -⟩ := hk
  generalize ht : lead ++ c :: name ++ trail ++ '=' :: rest = text at hs
  cases hs with
  | bare hi hstart _ =>
      cases lead with
      | nil =>
          subst ht
          exact ⟨c, _, trimStart_append hi hstart, hc⟩
      | cons d lead =>
          subst ht
          have hd := startsSolid_cons.mp hstart
          rw [hl d List.mem_cons_self] at hd
          contradiction
  | exported hi => exact ⟨'e', _, trimStart_append hi (startsSolid_cons.mpr (by decide)), isKeyStart_iff.mp (by decide)⟩

/-- Where a document makes an assignment, its first line that is not blank is a comment or starts with a
letter. -/
theorem exists_first_of_document {ls : List (List Char)} {es : List (List Char × List Char)}
    (h : Document ls es) (hne : es ≠ []) :
    ∃ before line after c cs, ls = before ++ line :: after ∧ (∀ l ∈ before, AllBlank l)
      ∧ trimStart line = c :: cs ∧ (c = '#' ∨ KeyHead c) := by
  induction h with
  | nil => exact absurd rfl hne
  | cons hc hd ih =>
      cases hc with
      | blank hb =>
          obtain ⟨before, line, after, c, cs, rfl, hbefore, ht, hhead⟩ := ih hne
          exact ⟨_ :: before, line, after, c, cs, rfl, List.forall_mem_cons.mpr ⟨hb, hbefore⟩, ht, hhead⟩
      | comment hcomment =>
          obtain ⟨text, ht⟩ := trimStart_of_isComment hcomment
          exact ⟨[], _, _, '#', text, rfl, by simp, ht, .inl rfl⟩
      | plain ha hk _ =>
          obtain ⟨c, cs, ht, hhead⟩ := exists_trimStart_of_assigns ha hk
          exact ⟨[], _, _, c, cs, rfl, by simp, ht, .inr hhead⟩
      | quoted ha hk _ _ _ =>
          obtain ⟨c, cs, ht, hhead⟩ := exists_trimStart_of_assigns ha hk
          exact ⟨[], _, _, c, cs, rfl, by simp, ht, .inr hhead⟩

theorem exists_equals_of_document {ls : List (List Char)} {es : List (List Char × List Char)}
    (h : Document ls es) (hne : es ≠ []) : ∃ l ∈ ls, '=' ∈ l := by
  induction h with
  | nil => exact absurd rfl hne
  | cons hc hd ih =>
      cases hc with
      | blank | comment =>
          obtain ⟨l, hl, he⟩ := ih hne
          exact ⟨l, List.mem_append_right _ hl, he⟩
      | plain ha | quoted ha =>
          obtain ⟨before, hs, -⟩ := ha
          have he := mem_of_said hs (List.mem_append_right before List.mem_cons_self)
          exact ⟨_, List.mem_append_left _ List.mem_cons_self, he⟩

theorem exists_trimStart_of_isLines {text line : List Char} {before after : List (List Char)}
    {c : Char} {cs : List Char} (h : IsLines text (before ++ line :: after))
    (hb : ∀ l ∈ before, AllBlank l) (ht : trimStart line = c :: cs) :
    ∃ ds, trimStart text = c :: ds := by
  induction before generalizing text with
  | nil =>
      have hline : ∀ more, ∃ ds, trimStart (line ++ more) = c :: ds := by
        intro more
        obtain ⟨lead, hl, he⟩ := exists_append_trimStart line
        have hsolid := startsSolid_trimStart line
        rw [ht] at he hsolid
        rw [he, List.append_assoc, List.cons_append]
        exact ⟨cs ++ more, trimStart_append hl (startsSolid_cons.mpr (startsSolid_cons.mp hsolid))⟩
      cases h with
      | last => exact ⟨cs, ht⟩
      | ended => exact hline _
      | returned => exact hline _
  | cons first before ih =>
      obtain ⟨hfirst, hbefore⟩ := List.forall_mem_cons.mp hb
      -- A blank line is skipped together with its end.
      have hskip : ∀ blank rest : List Char, blank.all isBlank = true →
          trimStart (first ++ (blank ++ rest)) = trimStart rest := by
        intro blank rest hblank
        rw [trimStart_append_of_blank hfirst, trimStart_append_of_blank (List.all_eq_true.mp hblank)]
      rw [List.cons_append] at h
      generalize hls : before ++ line :: after = ls at h
      cases h with
      | last => simp at hls
      | ended _ _ h =>
          obtain ⟨ds, hds⟩ := ih (hls ▸ h) hbefore
          exact ⟨ds, (hskip ['\n'] _ rfl).trans hds⟩
      | returned _ h =>
          obtain ⟨ds, hds⟩ := ih (hls ▸ h) hbefore
          exact ⟨ds, (hskip ['\r', '\n'] _ rfl).trans hds⟩

/-- What a text with assignments starts with, and a character that it has. -/
theorem head_of_read {text : String} {vars : Variables} (h : Format.read .keyValue text = .ok vars) :
    '=' ∈ text.toList ∧ ∃ c cs, trimStart text.toList = c :: cs ∧ (c = '#' ∨ KeyHead c) := by
  have ho := (keyValue_read_eq_iff text _).mp h
  cases ho with
  | accepted hl hd hne _ =>
      obtain ⟨l, hmem, he⟩ := exists_equals_of_document hd hne
      obtain ⟨before, line, after, c, cs, rfl, hb, ht, hc⟩ := exists_first_of_document hd hne
      obtain ⟨ds, htext⟩ := exists_trimStart_of_isLines hl hb ht
      refine ⟨?_, c, ds, htext, hc⟩
      rw [← lines_eq_iff] at hl
      exact mem_of_mem_lines (hl ▸ hmem) he

end Stencil.KeyValue
