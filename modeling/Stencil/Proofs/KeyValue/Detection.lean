import Stencil.Proofs.Format.Chain
import Stencil.Proofs.Json.Reading
import Stencil.Proofs.KeyValue.Opening
import Stencil.Proofs.KeyValue.RoundTrip
import Stencil.Proofs.Yaml.Opening
import Stencil.Proofs.Yaml.Scalar

/-!
# How KEY=VALUE text is detected

A chain comes to KEY=VALUE last, so such a text is found out by what the formats before it have against it.
For JSON the text would be a word with something behind it. For YAML it is one plain scalar over all of its
lines, as long as no value holds a colon or a number sign: no line opens a mapping, and a key is no mark
between documents.

Main statement: `resolve_plainDocument`.
-/

namespace Stencil.KeyValue

open Stencil.Text

/-- The characters that a value may hold which neither YAML nor quotes give a meaning: those of ASCII that
can be printed, without the colon, the number sign and the quotes. -/
def IsUnmarked (c : Char) : Prop :=
  ' ' ≤ c ∧ c ≤ '~' ∧ c ≠ ':' ∧ c ≠ '#' ∧ c ≠ '"' ∧ c ≠ '\''

/-- Whether assignments can be written without quotes and colons. -/
def Unmarked (es : List (List Char × List Char)) : Prop :=
  ∀ e ∈ es, IsKey e.1 ∧ ∀ c ∈ e.2, IsUnmarked c

instance (c : Char) : Decidable (IsUnmarked c) := inferInstanceAs (Decidable (_ ∧ _))

instance (cs : List Char) : Decidable (∀ c ∈ cs, IsUnmarked c) := List.decidableBAll _ cs

instance (es : List (List Char × List Char)) : Decidable (Unmarked es) :=
  List.decidableBAll (fun e : List Char × List Char => IsKey e.1 ∧ ∀ c ∈ e.2, IsUnmarked c) es

/-- The line of an assignment without quotes. -/
def plainLine (e : List Char × List Char) : List Char := e.1 ++ '=' :: e.2

/-- The text of some assignments without quotes, with a newline between each and the next. -/
def plainDocument (es : List (List Char × List Char)) : List Char := join ['\n'] (es.map plainLine)

/-! ## The lines -/

theorem bounds_of_mem_plainLine {e : List Char × List Char} (hk : IsKey e.1)
    (hv : ∀ c ∈ e.2, IsUnmarked c) {c : Char} (hc : c ∈ plainLine e) :
    0x20 ≤ c.toNat ∧ c.toNat ≤ 0x7E := by
  rcases List.mem_append.mp hc with hc | hc
  · have hb := keyTail_bounds (keyTail_of_mem hk hc)
    omega
  · rcases List.mem_cons.mp hc with rfl | hc
    · decide
    · obtain ⟨hl, hu, -⟩ := hv c hc
      simp only [Char.le_def, UInt32.le_iff_toNat_le] at hl hu
      exact ⟨hl, hu⟩

theorem ne_of_mem_plainLine {e : List Char × List Char} (hk : IsKey e.1)
    (hv : ∀ c ∈ e.2, IsUnmarked c) {c : Char} (hc : c ∈ plainLine e) : c ≠ ':' ∧ c ≠ '#' := by
  rcases List.mem_append.mp hc with hc | hc
  · exact ⟨fun h => not_mem_key hk (by decide) (h ▸ hc), fun h => not_mem_key hk (by decide) (h ▸ hc)⟩
  · rcases List.mem_cons.mp hc with rfl | hc
    · decide
    · obtain ⟨-, -, hcolon, hnumber, -⟩ := hv c hc
      exact ⟨hcolon, hnumber⟩

theorem isBreak_of_bounds {c : Char} (h : 0x20 ≤ c.toNat ∧ c.toNat ≤ 0x7E) :
    Yaml.isBreak c = false := by
  have hn : c ≠ '\n' := by rintro rfl; exact absurd h.1 (by decide)
  have hr : c ≠ '\r' := by rintro rfl; exact absurd h.1 (by decide)
  simp only [Yaml.isBreak, Bool.or_eq_false_iff, beq_eq_false_iff_ne]
  refine ⟨⟨⟨⟨hn, hr⟩, ?_⟩, ?_⟩, ?_⟩ <;> omega

theorem isAllowed_of_bounds {c : Char} (h : 0x20 ≤ c.toNat ∧ c.toNat ≤ 0x7E) :
    Yaml.isAllowed c = true := by
  simp [Yaml.isAllowed, h]

theorem startsDocumentMark_of_keyHead {c : Char} (h : KeyHead c) (cs : List Char) :
    Yaml.startsDocumentMark (c :: cs) = false := by
  have hd : c ≠ '-' := ne_of_keyHead h (by decide)
  have hp : c ≠ '.' := ne_of_keyHead h (by decide)
  unfold Yaml.startsDocumentMark
  split
  · rename_i he; exact absurd (List.cons.inj he).1 hd
  · rename_i he; exact absurd (List.cons.inj he).1 hp
  · rfl

theorem startsPlain_of_keyHead {c : Char} (hc : KeyHead c) :
    Yaml.isGap c = false ∧ Yaml.Lexer.isIndicator c = false := by
  have hne : ∀ d : Char, isKeyStart d = false → c ≠ d := fun d => ne_of_keyHead hc
  have hb : 0x2D ≤ c.toNat ∧ c.toNat ≤ 0x7A := keyTail_bounds (.inl hc)
  have hbreak : Yaml.isBreak c = false := isBreak_of_bounds (by omega)
  constructor
  · simp [Yaml.isGap, Yaml.isBlank, hne ' ' (by decide), hne '\t' (by decide), hbreak]
  · have hi : ∀ d ∈ Yaml.Lexer.indicators, isKeyStart d = false := by simp [Yaml.Lexer.indicators, isKeyStart]
    exact Yaml.Lexer.isIndicator_eq_false_of_forall fun d hd => hne d (hi d hd)

theorem newline_not_mem_plainLine {e : List Char × List Char} (hk : IsKey e.1)
    (hv : ∀ c ∈ e.2, IsUnmarked c) : '\n' ∉ plainLine e := fun h =>
  absurd (bounds_of_mem_plainLine hk hv h).1 (by decide)

/-- **An assignment without quotes is a clause**, with its value trimmed. -/
theorem clause_plainLine {e : List Char × List Char} (hk : IsKey e.1) (hv : ∀ c ∈ e.2, IsUnmarked c) :
    Clause [plainLine e] (some (e.1, trim e.2)) := by
  refine .plain (assigns_of_isKey hk e.2) hk ⟨?_, e.2, ⟨?_, [], by simp⟩, trim_eq_iff.mp rfl⟩
  · rintro quote first ⟨gap, he, -⟩
    have hq := hv quote.char (he ▸ List.mem_append_right gap List.mem_cons_self)
    cases quote with
    | single => exact hq.2.2.2.2.2 rfl
    | double => exact hq.2.2.2.2.1 rfl
  · rintro a b he
    exact absurd rfl (hv '#' (he ▸ List.mem_append_right a List.mem_cons_self)).2.2.2.1

/-! ## The text -/

section Text

variable {es : List (List Char × List Char)} {tail : List Char}

theorem exists_plainDocument (hne : es ≠ []) (h : Unmarked es) (tail : List Char) :
    ∃ c cs, plainDocument es ++ tail = c :: cs ∧ KeyHead c ∧ '=' ∈ cs := by
  obtain ⟨e, es, rfl⟩ := List.exists_cons_of_ne_nil hne
  obtain ⟨c, key, hkey, hc, -⟩ := (h e List.mem_cons_self).1
  let more := (es.map plainLine).flatMap ('\n' :: ·)
  refine ⟨c, key ++ '=' :: (e.2 ++ (more ++ tail)), ?_, hc, by simp⟩
  have hdocument : plainDocument (e :: es) = plainLine e ++ more := join_cons _ _
  rw [hdocument, plainLine, hkey]
  simp only [List.cons_append, List.append_assoc]

theorem isAllowed_plainDocument (h : Unmarked es) (ht : tail = [] ∨ tail = ['\n']) :
    (plainDocument es ++ tail).all Yaml.isAllowed = true := by
  rw [List.all_eq_true]
  refine List.forall_mem_append.mpr ⟨fun c hc => ?_, by rcases ht with rfl | rfl <;> exact List.all_eq_true.mp (by decide)⟩
  rcases mem_join hc with rfl | ⟨l, hl, hc⟩
  · decide
  · obtain ⟨e, he, rfl⟩ := List.mem_map.mp hl
    exact isAllowed_of_bounds (bounds_of_mem_plainLine (h e he).1 (h e he).2 hc)

theorem flowing_plainDocument (hne : es ≠ []) (h : Unmarked es) (ht : tail = [] ∨ tail = ['\n']) :
    Yaml.Flowing (plainDocument es ++ tail) := by
  refine Yaml.flowing_join ht (fun l hl c hc => ?_) (fun l hl rest => ?_) (by simpa using hne)
  · obtain ⟨e, he, rfl⟩ := List.mem_map.mp hl
    obtain ⟨hk, hv⟩ := h e he
    obtain ⟨hcolon, hnumber⟩ := ne_of_mem_plainLine hk hv hc
    exact ⟨hcolon, hnumber, isBreak_of_bounds (bounds_of_mem_plainLine hk hv hc)⟩
  · obtain ⟨e, he, rfl⟩ := List.mem_map.mp hl
    obtain ⟨c, key, hkey, hc, -⟩ := (h e he).1
    rw [plainLine, hkey]
    exact startsDocumentMark_of_keyHead hc _

theorem isLines_plainDocument (hne : es ≠ []) (h : Unmarked es) (ht : tail = [] ∨ tail = ['\n']) :
    IsLines (plainDocument es ++ tail) (es.map plainLine) := by
  refine isLines_join ht (fun l hl => ?_) (by simpa using hne)
  obtain ⟨e, he, rfl⟩ := List.mem_map.mp hl
  obtain ⟨hk, hv⟩ := h e he
  refine ⟨by simp [plainLine], newline_not_mem_plainLine hk hv, fun hr => ?_⟩
  exact absurd (bounds_of_mem_plainLine hk hv (List.mem_of_getLast? hr)).1 (by decide)

theorem document_plainLines (h : Unmarked es) :
    Document (es.map plainLine) (es.map fun e => (e.1, trim e.2)) := by
  induction es with
  | nil => exact .nil
  | cons e es ih =>
      obtain ⟨hk, hv⟩ := h e List.mem_cons_self
      exact .cons (clause_plainLine hk hv) (ih fun f hf => h f (List.mem_cons_of_mem _ hf))

end Text

/-! ## What the formats before have against it -/

/-- What starts with a letter is a word in JSON, behind which nothing but white space can stand. -/
theorem parse?_of_keyHead {text : String} {c d : Char} {cs : List Char} (ht : text.toList = c :: cs)
    (hc : KeyHead c) (hd : d ∈ cs) (hb : Json.isBareChar d = false) (hspace : Json.isSpace d = false) :
    Json.parse? text = none := by
  have hne : ∀ d : Char, isKeyStart d = false → c ≠ d := fun d => ne_of_keyHead hc
  have hs : Json.isSpace c = false := by
    simp [Json.isSpace, hne ' ' (by decide), hne '\t' (by decide), hne '\n' (by decide),
      hne '\r' (by decide)]
  -- The character `d` belongs neither to a bare value nor to the white space behind one.
  have hbare : ∀ {w rest : List Char}, Json.Bare w → c :: cs = w ++ rest → ¬ Json.AllSpace rest := by
    intro w rest hw hcs hr
    rcases List.mem_append.mp (hcs ▸ List.mem_cons_of_mem c hd : d ∈ w ++ rest) with hm | hm
    · rw [hw.char d hm] at hb
      contradiction
    · rw [hr d hm] at hspace
      contradiction
  refine Option.eq_none_iff_forall_ne_some.mpr fun v hv => ?_
  obtain ⟨rest, hshape, hr⟩ := Json.parse?_eq_some_iff.mp hv
  rw [ht, Json.skipSpace_of_not_isSpace hs] at hshape
  generalize hcs : c :: cs = ds at hshape
  cases hshape with
  | word hw => exact hbare (Json.bare_of_mem_words hw) hcs hr
  | number hn =>
      obtain ⟨w, rfl, hw⟩ := Json.spelled_of_numerals? hn
      exact hbare (Json.bare_of_spelled hw) hcs hr
  | string => exact hne '"' (by decide) (List.cons.inj hcs).1
  | emptyArray | array => exact hne '[' (by decide) (List.cons.inj hcs).1
  | emptyObject | object => exact hne '\x7b' (by decide) (List.cons.inj hcs).1

theorem rejects_json_of_keyHead {text : String} {c d : Char} {cs : List Char} (ht : text.toList = c :: cs)
    (hc : KeyHead c) (hd : d ∈ cs) (hb : Json.isBareChar d = false) (hspace : Json.isSpace d = false) :
    Format.Rejects .json text := by
  refine Format.rejects_iff.mpr fun vars hv => ?_
  have hm := Format.members_of_read hv
  simp only [Format.members, Format.jsonMembers, parse?_of_keyHead ht hc hd hb hspace] at hm
  contradiction

/-- A text that starts with a letter and flows on is no mapping in YAML. -/
theorem rejects_yaml_of_flowing {text : String} {c : Char} {cs : List Char}
    (ht : text.toList = c :: cs) (hc : KeyHead c) (hf : Yaml.Flowing (c :: cs))
    (ha : (c :: cs).all Yaml.isAllowed = true) : Format.Rejects .yaml text := by
  obtain ⟨hg, hi⟩ := startsPlain_of_keyHead hc
  obtain ⟨word, htokens⟩ := Yaml.tokens?_of_flowing hf ha hg hi (ne_of_keyHead hc (by decide))
    (startsDocumentMark_of_keyHead hc cs)
  refine Format.rejects_iff.mpr fun vars hv => ?_
  obtain ⟨ts, hts, hopen⟩ := Yaml.mayOpenMapping_of_yamlMembers (Format.members_of_read hv)
  rw [ht, htokens] at hts
  cases hts
  obtain ⟨t, ht, hopens⟩ := hopen
  cases ht
  contradiction

/-- **Assignments without quotes and colons are detected as such.** -/
theorem resolve_plainDocument {es : List (List Char × List Char)} (hne : es ≠ []) (h : Unmarked es)
    {text : String}
    (ht : text.toList = plainDocument es ∨ text.toList = plainDocument es ++ ['\n']) :
    Format.Rejects .json text ∧ Format.Rejects .yaml text
      ∧ ∃ vars, Chain.standard.resolve text = .ok ⟨vars, .keyValue⟩
        ∧ vars.members = membersOf (es.map fun e => (e.1, trim e.2))
        ∧ vars.names = (es.map fun e => String.ofList e.1).eraseDups
        ∧ ∀ before key value after, es = before ++ (key, value) :: after →
            (∀ e ∈ after, e.1 ≠ key) →
            vars.get? (String.ofList key) = some (.string (String.ofList (trim value))) := by
  have htail : ∃ tail, (tail = [] ∨ tail = ['\n']) ∧ text.toList = plainDocument es ++ tail := by
    rcases ht with ht | ht
    · exact ⟨[], .inl rfl, by rw [ht, List.append_nil]⟩
    · exact ⟨['\n'], .inr rfl, ht⟩
  obtain ⟨tail, htail, ht⟩ := htail
  have hhead := exists_plainDocument hne h tail
  obtain ⟨c, cs, hcs, hc, hequals⟩ := hhead
  have hjson : Format.Rejects .json text :=
    rejects_json_of_keyHead (ht.trans hcs) hc hequals (by decide) (by decide)
  have hyaml : Format.Rejects .yaml text :=
    rejects_yaml_of_flowing (ht.trans hcs) hc (hcs ▸ flowing_plainDocument hne h htail)
      (hcs ▸ isAllowed_plainDocument h htail)
  let pairs := es.map fun e => (e.1, trim e.2)
  have hpairs : pairs ≠ [] := by simpa [pairs] using hne
  have hlines : IsLines text.toList (es.map plainLine) := ht ▸ isLines_plainDocument hne h htail
  let vars : Variables := ⟨membersOf pairs, membersOf_ne_nil hpairs⟩
  have hread : Format.read .keyValue text = .ok vars :=
    read_of_outcome (.accepted hlines (document_plainLines h) hpairs rfl)
  refine ⟨hjson, hyaml, vars, ?_, rfl, ?_, ?_⟩
  · -- Both formats that are tried before reject the text.
    refine Chain.resolve_eq_ok_iff.mpr ⟨[.json, .yaml], [], Chain.formats_standard, ?_, hread⟩
    simp [hjson, hyaml]
  · exact (keys_membersOf pairs).trans (by simp [pairs, Function.comp_def])
  · rintro before key value after rfl hafter
    have hlast : ∀ e ∈ after.map fun e => (e.1, trim e.2), e.1 ≠ key := List.forall_mem_map.mpr hafter
    show Members.get? (membersOf (List.map _ (before ++ (key, value) :: after))) _ = _
    rw [List.map_append, List.map_cons]
    exact get?_membersOf hlast (trim value)

/-- Assignments that look like something else: a mark between documents, a list and a bracket among the
values, a word of JSON for a key, and blanks around a value. -/
def disguised : List (List Char × List Char) :=
  [("null".toList, "[1, 2]".toList), ("A.b-1".toList, " --- | ".toList), ("null".toList, "- x=y".toList)]

theorem resolve_plainDocument_disguised :
    disguised ≠ [] ∧ Unmarked disguised
      ∧ ∃ vars, Chain.standard.resolve "null=[1, 2]\nA.b-1= --- | \nnull=- x=y\n"
          = .ok ⟨vars, .keyValue⟩
        ∧ vars.names = ["null", "A.b-1"] ∧ vars.get? "null" = some (.string "- x=y")
        ∧ vars.get? "A.b-1" = some (.string "--- |") := by
  have hne : disguised ≠ [] := by decide
  have h : Unmarked disguised := by decide
  have ht : "null=[1, 2]\nA.b-1= --- | \nnull=- x=y\n".toList = plainDocument disguised ++ ['\n'] := by
    decide
  obtain ⟨-, -, vars, hr, -, hn, hget⟩ := resolve_plainDocument hne h (.inr ht)
  refine ⟨hne, h, vars, hr, hn, hget [_, _] _ _ [] rfl (by decide), ?_⟩
  exact hget [_] _ _ [_] rfl (by decide)

end Stencil.KeyValue
