import Mathlib.Logic.Function.Basic
import Stencil.Text.Escape.Html

/-!
# Texts that are harmless in a document

A text is harmless in a document when none of the four marks that open a tag or end an attribute stands in
it, and every ampersand starts one of the five entities. Harmless texts may follow one another
(`harmless_append`), a text without any of the five characters is harmless (`harmless_of_free`), and so is
every text that was escaped. There are no other harmless texts: what the entities of one stand for is escaped to it
again (`escape_decode`).

Main statements: `harmless_escape` and `escaped_faithful`.
-/

namespace Stencil.Text.Html

/-- The entities of the five characters. -/
def entities : List (List Char) :=
  [['&', 'a', 'm', 'p', ';'], ['&', 'l', 't', ';'], ['&', 'g', 't', ';'],
    ['&', 'q', 'u', 'o', 't', ';'], ['&', '#', '3', '9', ';']]

/-- Whether a text is harmless in a document. -/
structure Harmless (cs : List Char) : Prop where
  marks : ∀ c ∈ cs, c ≠ '<' ∧ c ≠ '>' ∧ c ≠ '"' ∧ c ≠ '\''
  ampersands : ∀ rest, '&' :: rest <:+ cs → ∃ e ∈ entities, e <+: '&' :: rest

theorem harmless_nil : Harmless [] where
  marks := List.forall_mem_nil _
  ampersands _ h := by simp at h

/-- Whether none of the five characters stands in a text. -/
def Free (cs : List Char) : Prop := ∀ c ∈ cs, c ≠ '&' ∧ c ≠ '<' ∧ c ≠ '>' ∧ c ≠ '"' ∧ c ≠ '\''

instance : DecidablePred Free := fun cs => List.decidableBAll _ cs

theorem harmless_of_free {cs : List Char} (h : Free cs) : Harmless cs where
  marks c hc := (h c hc).2
  ampersands _ hr := absurd rfl (h '&' (hr.subset List.mem_cons_self)).1

/-- **Harmless texts may follow one another.** -/
theorem harmless_append {a b : List Char} (ha : Harmless a) (hb : Harmless b) :
    Harmless (a ++ b) where
  marks c hc := (List.mem_append.mp hc).elim (ha.marks c) (hb.marks c)
  ampersands rest h := by
    obtain ⟨before, heq⟩ := h
    rcases List.append_eq_append_iff.mp heq with ⟨between, rfl, hb'⟩ | ⟨between, rfl, hb'⟩
    · cases between with
      | nil => exact hb.ampersands rest ⟨[], hb'⟩
      | cons c cs =>
          -- The ampersand stands in `a`, and so does the entity that it starts.
          obtain ⟨rfl, rfl⟩ := List.cons.inj hb'
          obtain ⟨e, he, hprefix⟩ := ha.ampersands cs (List.suffix_append before _)
          exact ⟨e, he, hprefix.trans (List.prefix_append _ b)⟩
    · exact hb.ampersands rest ⟨between, hb'.symm⟩

theorem harmless_flatten {texts : List (List Char)} (h : ∀ t ∈ texts, Harmless t) :
    Harmless texts.flatten := by
  induction texts with
  | nil => exact harmless_nil
  | cons t texts ih =>
      obtain ⟨ht, hrest⟩ := List.forall_mem_cons.mp h
      exact harmless_append ht (ih hrest)

theorem mem_entities_of_entity? {c : Char} {e : List Char} (h : entity? c = some e) :
    e ∈ entities := by
  unfold entity? at h
  repeat' split at h
  all_goals first | contradiction | (cases h; decide)

/-- An entity has one ampersand, at its start, and no mark. -/
theorem harmless_of_mem_entities {e : List Char} (h : e ∈ entities) : Harmless e where
  marks := by
    simp only [entities, List.mem_cons, List.not_mem_nil, or_false] at h
    rcases h with rfl | rfl | rfl | rfl | rfl <;> simp
  ampersands rest hr := by
    have hstart : '&' :: rest = e := by
      simp only [entities, List.mem_cons, List.not_mem_nil, or_false] at h
      rcases h with rfl | rfl | rfl | rfl | rfl <;> simpa [List.suffix_cons_iff] using hr
    exact ⟨e, h, hstart ▸ List.prefix_refl _⟩

theorem harmless_escapeChar (c : Char) : Harmless (escapeChar c) := by
  unfold escapeChar
  cases h : entity? c with
  | some e => exact harmless_of_mem_entities (mem_entities_of_entity? h)
  | none =>
      refine harmless_of_free fun d hd => ?_
      obtain rfl : d = c := List.mem_singleton.mp hd
      unfold entity? at h
      repeat' split at h
      all_goals simp_all

/-- **What is escaped is harmless.** -/
theorem harmless_escape (cs : List Char) : Harmless (escape cs) := by
  induction cs with
  | nil => exact harmless_nil
  | cons c cs ih => rw [escape_cons]; exact harmless_append (harmless_escapeChar c) ih

/-! ## Reading what was escaped -/

theorem Harmless.of_suffix {a b : List Char} (h : Harmless b) (hs : a <:+ b) : Harmless a where
  marks c hc := h.marks c (hs.subset hc)
  ampersands rest hr := h.ampersands rest (hr.trans hs)

/-- A character of a harmless text that starts no entity is written as itself. -/
theorem escapeChar_of_harmless {c : Char} {cs : List Char} (h : Harmless (c :: cs))
    (hn : ∀ e ∈ entities, ¬ e <+: c :: cs) : escapeChar c = [c] := by
  have hamp : c ≠ '&' := by
    rintro rfl
    obtain ⟨e, he, hprefix⟩ := h.ampersands cs (List.suffix_refl _)
    exact hn e he hprefix
  obtain ⟨hlt, hgt, hquot, hapos⟩ := h.marks c List.mem_cons_self
  simp [escapeChar, entity?, hamp, hlt, hgt, hquot, hapos]

/-- **A harmless text is what its reading is escaped to.** -/
theorem escape_decode {cs : List Char} (h : Harmless cs) : escape (decode cs) = cs := by
  fun_induction decode cs with
  | case1 cs ih | case2 cs ih | case3 cs ih | case4 cs ih | case5 cs ih =>
      have hrest : Harmless cs := h.of_suffix (by simp [List.suffix_cons_iff])
      rw [escape_cons, ih hrest]
      rfl
  | case6 c cs hamp hlt hgt hquot hapos ih =>
      have hself : escapeChar c = [c] := by
        refine escapeChar_of_harmless h fun e he hprefix => ?_
        obtain ⟨rest, hrest⟩ := hprefix
        simp only [entities, List.mem_cons, List.not_mem_nil, or_false] at he
        rcases he with rfl | rfl | rfl | rfl | rfl <;> obtain ⟨rfl, rfl⟩ := List.cons.inj hrest
        · exact hamp rest rfl rfl
        · exact hlt rest rfl rfl
        · exact hgt rest rfl rfl
        · exact hquot rest rfl rfl
        · exact hapos rest rfl rfl
      rw [escape_cons, hself, ih (h.of_suffix (List.suffix_cons c cs)), List.singleton_append]
  | case7 => rfl

theorem toList_escaped (s : String) : (escaped s).toList = escape s.toList := String.toList_ofList

/-- **Escaping makes texts harmless and loses nothing of them.** One pass over an escaped text reads the text back,
also where the text spells an entity itself, so no two texts are escaped alike; the harmless texts are just those that
some text is escaped to; and texts can be escaped one after the other. -/
theorem escaped_faithful :
    (∀ s, Harmless (escaped s).toList ∧ decode (escaped s).toList = s.toList)
      ∧ (∀ t : String, Harmless t.toList ↔ ∃ s, escaped s = t)
      ∧ Function.Injective escaped
      ∧ ∀ s t, escaped (s ++ t) = escaped s ++ escaped t := by
  have hread (s : String) : decode (escaped s).toList = s.toList := by
    rw [toList_escaped, decode_escape]
  have hharmless (s : String) : Harmless (escaped s).toList := by
    rw [toList_escaped]
    exact harmless_escape s.toList
  refine ⟨fun s => ⟨hharmless s, hread s⟩, fun t => ⟨fun ht => ?_, ?_⟩, fun s t h => ?_, fun s t => ?_⟩
  · refine ⟨String.ofList (decode t.toList), ?_⟩
    rw [escaped, String.toList_ofList, escape_decode ht, String.ofList_toList]
  · rintro ⟨s, rfl⟩
    exact hharmless s
  · have hlist : s.toList = t.toList := by rw [← hread s, h, hread t]
    exact String.toList_injective hlist
  · rw [escaped, String.toList_append, escape_append, String.ofList_append, escaped, escaped]

example : escaped "&amp;lt;<'\"" = "&amp;amp;lt;&lt;&#39;&quot;" := by decide

end Stencil.Text.Html
