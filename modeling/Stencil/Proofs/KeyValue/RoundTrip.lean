import Stencil.KeyValue.Printer
import Stencil.Proofs.KeyValue.Reading

/-!
# Reading undoes writing

What is written of an assignment is a line of its own, since its escapes leave no newline, and a clause by
itself. A key holds no blank, so the word `export` is no word in front of it even where it is the key.

Main statement: `keyValue_read_document`.
-/

namespace Stencil.KeyValue

open Stencil.Text

/-! ## Characters of keys and values -/

theorem keyTail_of_mem {key : List Char} (hk : IsKey key) {c : Char} (hc : c ∈ key) : KeyTail c := by
  obtain ⟨d, rest, rfl, hd, hr⟩ := hk
  rcases List.mem_cons.mp hc with rfl | hc
  · exact .inl hd
  · exact hr c hc

/-- The characters of a key stand between the hyphen and the small letters. -/
theorem keyTail_bounds {c : Char} (h : KeyTail c) : 0x2D ≤ c.toNat ∧ c.toNat ≤ 0x7A := by
  simp only [KeyTail, KeyHead, Char.le_def, UInt32.le_iff_toNat_le] at h
  rcases h with (h | h | rfl) | h | rfl | rfl
  · change 65 ≤ c.toNat ∧ c.toNat ≤ 90 at h
    omega
  · change 97 ≤ c.toNat ∧ c.toNat ≤ 122 at h
    omega
  · decide
  · change 48 ≤ c.toNat ∧ c.toNat ≤ 57 at h
    omega
  · decide
  · decide

theorem isBlank_of_mem_key {key : List Char} (hk : IsKey key) {c : Char} (hc : c ∈ key) :
    isBlank c = false := by
  have hb := keyTail_bounds (keyTail_of_mem hk hc)
  simp only [isBlank, Bool.or_eq_false_iff, Bool.and_eq_false_iff, decide_eq_false_iff_not,
    beq_eq_false_iff_ne]
  omega

theorem not_mem_key {key : List Char} (hk : IsKey key) {c : Char} (hc : isKeyRest c = false) :
    c ∉ key := fun hm => by
  rw [isKeyRest_iff.mpr (keyTail_of_mem hk hm)] at hc
  contradiction

theorem newline_not_mem_encode (value : List Char) : '\n' ∉ encode value := by
  induction value with
  | nil => exact List.not_mem_nil
  | cons c value ih =>
      have hc : '\n' ∉ encodeChar c := by
        unfold encodeChar
        repeat' split
        all_goals simp_all [eq_comm]
      rw [encode_cons, List.mem_append]
      exact fun h => h.elim hc ih

/-! ## One assignment -/

/-- What stands behind the equals sign of a written assignment. -/
def quotedText (value : List Char) : List Char := '"' :: (encode value ++ ['"'])

def writtenLine (e : List Char × List Char) : List Char := e.1 ++ '=' :: quotedText e.2

theorem written_append (e : List Char × List Char) (rest : List Char) :
    written e.1 e.2 ++ rest = writtenLine e ++ '\n' :: rest := by
  simp [written, writtenLine, quotedText]

theorem newline_not_mem_writtenLine {e : List Char × List Char} (hk : IsKey e.1) :
    '\n' ∉ writtenLine e := by
  have hkey : '\n' ∉ e.1 := not_mem_key hk (by decide)
  have hvalue := newline_not_mem_encode e.2
  simp [writtenLine, quotedText, hkey, hvalue]

theorem getLast?_writtenLine (e : List Char × List Char) :
    (writtenLine e).getLast? = some '"' := by
  simp [writtenLine, quotedText, List.getLast?_cons]

/-- No equals sign belongs to the word `export`, so it stands in front of the first one or nowhere. -/
theorem exportWord_prefix_append_iff {before rest : List Char} :
    exportWord <+: before ++ '=' :: rest ↔ exportWord <+: before := by
  refine ⟨fun h => ?_, fun h => h.trans (List.prefix_append before _)⟩
  have hw : '=' ∉ exportWord := by decide
  have hb : before ++ ['='] <+: before ++ '=' :: rest := ⟨rest, by simp⟩
  rcases List.prefix_or_prefix_of_prefix h hb with h | h
  · rcases List.prefix_concat_iff.mp h with he | h
    · exact absurd (he ▸ List.mem_append_right before List.mem_cons_self) hw
    · exact h
  · exact absurd (h.subset (List.mem_append_right before List.mem_cons_self)) hw

/-- The word `export` is no word in front of a key, since a blank belongs to it. -/
theorem not_exportWord_prefix_of_isKey {key rest : List Char} (hk : IsKey key) :
    ¬ exportWord <+: key ++ '=' :: rest := by
  intro h
  have hblank : ' ' ∈ key := (exportWord_prefix_append_iff.mp h).subset (by decide)
  exact not_mem_key hk (by decide) hblank

theorem isTrim_of_isKey {key : List Char} (hk : IsKey key) : IsTrim key key := by
  refine ⟨[], [], (List.append_nil key).symm, allBlank_nil, allBlank_nil, ?_, ?_⟩
  · exact fun c hc => isBlank_of_mem_key hk (List.mem_of_mem_head? hc)
  · exact fun c hc => isBlank_of_mem_key hk (List.mem_of_mem_getLast? hc)

/-- A key in front of the first equals sign of a line is what the line assigns to. -/
theorem assigns_of_isKey {key : List Char} (hk : IsKey key) (rest : List Char) :
    Assigns (key ++ '=' :: rest) key rest := by
  have hsolid : StartsSolid (key ++ '=' :: rest) := by
    obtain ⟨c, more, he, -⟩ := id hk
    rw [he]
    exact startsSolid_cons.mpr (isBlank_of_mem_key hk (he ▸ List.mem_cons_self))
  refine ⟨key, ?_, not_mem_key hk (by decide), isTrim_of_isKey hk⟩
  exact .bare allBlank_nil hsolid (not_exportWord_prefix_of_isKey hk)

/-- **A written assignment is a clause.** -/
theorem clause_writtenLine {e : List Char × List Char} (hk : IsKey e.1) :
    Clause [writtenLine e] (some e) := by
  have hopens : Opens .double (quotedText e.2) (encode e.2 ++ ['"']) := ⟨[], rfl, allBlank_nil⟩
  have hencloses : Encloses .double [encode e.2 ++ ['"']] e.2 [] :=
    ⟨encode e.2, rfl, List.not_mem_nil, inside_encode e.2⟩
  exact .quoted (assigns_of_isKey hk (quotedText e.2)) hk hopens hencloses (.inl allBlank_nil)

/-! ## All assignments -/

theorem isLines_document {es : List (List Char × List Char)} (hk : ∀ e ∈ es, IsKey e.1) :
    IsLines (document es) (es.map writtenLine) := by
  induction es with
  | nil => exact .none
  | cons e es ih =>
      have he : IsKey e.1 := hk e List.mem_cons_self
      have hreturn : (writtenLine e).getLast? ≠ some '\r' := by
        rw [getLast?_writtenLine]
        decide
      rw [document, List.flatMap_cons, written_append]
      exact .ended (newline_not_mem_writtenLine he) hreturn
        (ih fun f hf => hk f (List.mem_cons_of_mem _ hf))

theorem document_writtenLines {es : List (List Char × List Char)} (hk : ∀ e ∈ es, IsKey e.1) :
    Document (es.map writtenLine) es := by
  induction es with
  | nil => exact .nil
  | cons e es ih =>
      exact .cons (clause_writtenLine (hk e List.mem_cons_self))
        (ih fun f hf => hk f (List.mem_cons_of_mem _ hf))

theorem keys_membersOf (es : List (List Char × List Char)) :
    Members.keys (membersOf es) = (es.map fun e => String.ofList e.1).eraseDups := by
  rw [membersOf, Members.keys_ofEntries, List.map_map]
  rfl

/-- The last value that a key is given. -/
theorem get?_membersOf {before after : List (List Char × List Char)} {key : List Char}
    (h : ∀ e ∈ after, e.1 ≠ key) (value : List Char) :
    Members.get? (membersOf (before ++ (key, value) :: after)) (String.ofList key)
      = some (.string (String.ofList value)) := by
  rw [membersOf, List.map_append, List.map_cons]
  refine Members.get?_ofEntries (fun f hf => ?_) _ _
  obtain ⟨e, he, rfl⟩ := List.mem_map.mp hf
  exact fun hk => h e he (String.ofList_injective hk)

/-- **Reading undoes writing**, whatever the values are: the variables are the assignments made in order.
Every key stays where it first came, and its value is the last one, unchanged. -/
theorem keyValue_read_document {es : List (List Char × List Char)} (hne : es ≠ [])
    (hk : ∀ e ∈ es, IsKey e.1) :
    ∃ vars, Format.read .keyValue (String.ofList (document es)) = .ok vars
      ∧ vars.members = membersOf es
      ∧ vars.names = (es.map fun e => String.ofList e.1).eraseDups
      ∧ ∀ before key value after, es = before ++ (key, value) :: after →
          (∀ e ∈ after, e.1 ≠ key) →
          vars.get? (String.ofList key) = some (.string (String.ofList value)) := by
  have hl : IsLines (String.ofList (document es)).toList (es.map writtenLine) := by
    rw [String.toList_ofList]
    exact isLines_document hk
  refine ⟨⟨membersOf es, membersOf_ne_nil hne⟩, ?_, rfl, keys_membersOf es, ?_⟩
  · exact read_of_outcome (.accepted hl (document_writtenLines hk) hne rfl)
  · rintro before key value after rfl hafter
    exact get?_membersOf hafter value

/-- Assignments that make trouble: a key that is a word of the grammar and comes twice, and values with
escapes, line ends and quotes. -/
def troublesome : List (List Char × List Char) :=
  [("export".toList, "a\"\n#".toList), ("A.b-1".toList, "\\\r=".toList), ("export".toList, [])]

theorem keyValue_read_document_troublesome :
    troublesome ≠ [] ∧ (∀ e ∈ troublesome, IsKey e.1)
      ∧ ∃ vars, Format.read .keyValue (String.ofList (document troublesome)) = .ok vars
        ∧ vars.names = ["export", "A.b-1"] ∧ vars.get? "export" = some (.string "")
        ∧ vars.get? "A.b-1" = some (.string "\\\r=") := by
  have hne : troublesome ≠ [] := by decide
  have hk : ∀ e ∈ troublesome, IsKey e.1 := by decide
  obtain ⟨vars, hr, -, hn, hget⟩ := keyValue_read_document hne hk
  refine ⟨hne, hk, vars, hr, hn, hget [_, _] _ _ [] rfl (by decide), ?_⟩
  exact hget [_] _ _ [_] rfl (by decide)

end Stencil.KeyValue
