import Stencil.Proofs.Format.Chain
import Stencil.Proofs.KeyValue.Opening
import Stencil.Proofs.Members
import Stencil.Proofs.Yaml.Brackets

/-!
# JSON texts that are no variables

A text that holds a JSON value without members is no variables in any format. For YAML its first token opens
a sequence or is a scalar, and no colon comes behind it that would make a key of it. For KEY=VALUE its first
line starts with no key, or there is no equals sign in the whole text.

Main statement: `rejects_of_parse?`.
-/

namespace Stencil

open Text Json

/-! ## As YAML -/

namespace Yaml

open Lexer

variable {s : Lexer} {cs more rest : List Char} {c : Char} {depth : Nat} {v : Json}

/-- The first token of a text that opens an array. -/
theorem leads_first_bracket (hs : skipSpace cs = '[' :: more) :
    Leads (start cs) (Inside 1 more) := by
  refine leads_of_token rfl hs ⟨by decide, by decide, by decide⟩ fun t u hr _ hu => ?_
  have hopen : t.openFlow .flowSequence more = some u := by simpa [token, startsDocumentMark] using hu
  have hfirst := (emits_of_openFlow hopen).inside_first hr.margin hr.tokens rfl
  rwa [hr.brackets] at hfirst

/-- The only token of a text that is a string. -/
theorem leads_first_string {name : List Char} (hs : skipSpace cs = '"' :: more)
    (hb : Body more name rest) : Leads (start cs) (Inside 0 rest) := by
  refine leads_of_token rfl hs ⟨by decide, by decide, by decide⟩ fun t u hr _ hu => ?_
  obtain ⟨text, he⟩ := emits_of_string hb hu
  have hfirst := he.inside_first hr.margin hr.tokens rfl
  rwa [hr.brackets] at hfirst

/-- The only token of a text that is a word or a number. -/
theorem leads_first_bare {w : List Char} (hw : Bare w) (hs : skipSpace cs = w ++ rest)
    (hr : skipSpace rest = []) : Leads (start cs) (Inside 0 rest) := by
  obtain ⟨c, more, hcons, -⟩ := hw.head
  have hsolid := isSolid_of_isBareChar (hw.char c (hcons ▸ List.mem_cons_self))
  have hsplit : w ++ rest = c :: (more ++ rest) := by rw [hcons, List.cons_append]
  refine leads_of_token rfl (hs.trans hsplit) hsolid fun t u ht hrest hu => ?_
  obtain ⟨text, he⟩ := emits_of_bare hw hsplit hrest (.inl hr) hu
  have hfirst := he.inside_first ht.margin ht.tokens rfl
  rw [ht.brackets] at hfirst
  exact hfirst.of_skipSpace (skipSpace_skipSpace rest)

/-- A text without members is cut up to its end, and its first token is settled then. -/
theorem leads_of_shape (h : Shape depth (skipSpace cs) v rest) (hr : skipSpace rest = [])
    (hv : ∀ members, v ≠ .object members) : Leads (start cs) (Inside 0 rest) := by
  generalize hs : skipSpace cs = ds at h
  cases h with
  | string h => exact leads_first_string hs h
  | word h => exact leads_first_bare (bare_of_mem_words h) hs hr
  | number hn =>
      obtain ⟨w, rfl, hw⟩ := spelled_of_numerals? hn
      exact leads_first_bare (bare_of_spelled hw) hs hr
  | emptyArray h => exact (leads_first_bracket hs).trans fun t ht => ht.leads_close h (.inl rfl)
  | array h =>
      exact (leads_first_bracket hs).trans fun t ht => leads_listed (leads_value _) (.inl rfl) h ht
  | emptyObject | object => exact absurd rfl (hv _)

/-- An empty object is an empty mapping. -/
theorem tokens?_of_emptyObject {ts : List Token} (hs : skipSpace cs = '\x7b' :: more)
    (hc : skipSpace more = '\x7d' :: rest) (hr : skipSpace rest = []) (h : tokens? cs = some ts) :
    ts = [.flowMapping, .flowMappingEnd] := by
  have hopen : Leads (start cs) fun u => u.rest = more ∧ u.margin = 0 ∧ u.tokens = [.flowMapping] := by
    refine leads_of_token rfl hs ⟨by decide, by decide, by decide⟩ fun t u hr _ hu => ?_
    have hopen : t.openFlow .flowMapping more = some u := by
      simpa [token, startsDocumentMark] using hu
    have he := emits_of_openFlow hopen
    exact ⟨he.rest, he.margin.trans hr.margin, by rw [he.tokens, hr.tokens]; rfl⟩
  have hclose : Leads (start cs) fun u =>
      u.rest = rest ∧ u.margin = 0 ∧ u.tokens = [.flowMappingEnd, .flowMapping] := by
    refine hopen.trans fun t ht => ?_
    obtain ⟨hrest, hmargin, htokens⟩ := ht
    refine leads_of_token hmargin (hrest ▸ hc) ⟨by decide, by decide, by decide⟩ fun u v hr _ hv => ?_
    have hclose : u.closeFlow .flowMappingEnd rest = some v := by
      simpa [token, startsDocumentMark] using hv
    have he := emits_of_closeFlow hclose
    exact ⟨he.rest, he.margin.trans (hr.margin.trans hmargin), by rw [he.tokens, hr.tokens, htokens]⟩
  unfold tokens? at h
  split at h
  · obtain ⟨n, u, ⟨hrest, hmargin, htokens⟩, hn⟩ := hclose _ _ h
    rw [tokens_of_end hmargin (hrest ▸ hr) hn, htokens]
    rfl
  · contradiction

theorem not_mayOpenMapping_of_shape {ts : List Token} (h : Shape depth (skipSpace cs) v rest)
    (hr : skipSpace rest = []) (hv : ∀ members, v ≠ .object members) (ht : tokens? cs = some ts) :
    ¬ MayOpenMapping ts := by
  rintro ⟨tok, hhead, hopen⟩
  unfold tokens? at ht
  split at ht
  · obtain ⟨n, u, hu, hn⟩ := leads_of_shape h hr hv _ _ ht
    obtain rfl := tokens_of_end hu.margin (hu.rest.trans hr) hn
    obtain ⟨first, hfirst, hsettled⟩ := hu.settled
    rw [List.head?_reverse, hfirst] at hhead
    cases hhead
    rw [hsettled] at hopen
    contradiction
  · contradiction

/-- The mapping that no entries make. -/
theorem yamlMembers_of_emptyObject {text : String}
    (h : tokens? text.toList = some [.flowMapping, .flowMappingEnd]) :
    Format.yamlMembers text = .ok [] := by
  have hd : document? [.flowMapping, .flowMappingEnd] = some (.mapping none none []) := rfl
  simp only [Format.yamlMembers, parse?, Tree.ofText?, h, hd, bind, Option.bind_some]
  rfl

end Yaml

theorem ne_nil_of_listed {α : Type} {one : Read α} {close : Char} {cs rest : List Char} {as : List α}
    (h : Listed one close cs as rest) : as ≠ [] := by
  cases h <;> exact List.cons_ne_nil _ _

theorem exists_braces_of_parse? {text : String} (h : Json.parse? text = some (.object [])) :
    ∃ more rest, skipSpace text.toList = '\x7b' :: more ∧ skipSpace more = '\x7d' :: rest
      ∧ skipSpace rest = [] := by
  obtain ⟨rest, hs, hr⟩ := Json.parse?_eq_some_iff.mp h
  generalize hd : skipSpace text.toList = ds at hs
  generalize hv : Json.object [] = v at hs
  cases hs with
  | emptyObject hc => exact ⟨_, rest, rfl, hc, skipSpace_eq_nil_iff.mpr hr⟩
  | object hm =>
      have hempty := (Json.object.inj hv).symm
      exact absurd hempty (Members.ofEntries_ne_nil (ne_nil_of_listed hm))
  | word hw => simp [words, ← hv] at hw
  | string | number | emptyArray | array => cases hv

/-- **A JSON text without members is no mapping in YAML.** -/
theorem rejects_yaml_of_parse? {text : String} {v : Json} (h : Json.parse? text = some v)
    (hv : ∀ members, v = .object members → members = []) : Format.Rejects .yaml text := by
  refine Format.rejects_iff.mpr fun vars hread => ?_
  have hmembers := Format.members_of_read hread
  obtain ⟨ts, hts, hopen⟩ := Yaml.mayOpenMapping_of_yamlMembers hmembers
  obtain ⟨rest, hs, hr⟩ := Json.parse?_eq_some_iff.mp h
  have hr := skipSpace_eq_nil_iff.mpr hr
  by_cases hobject : ∃ members, v = .object members
  · obtain ⟨members, rfl⟩ := hobject
    obtain rfl := hv members rfl
    obtain ⟨more, rest, hopen', hclose, hr⟩ := exists_braces_of_parse? h
    obtain rfl := Yaml.tokens?_of_emptyObject hopen' hclose hr hts
    have hnone : vars.members = [] :=
      Except.ok.inj (hmembers.symm.trans (Yaml.yamlMembers_of_emptyObject hts))
    exact vars.nonempty hnone
  · exact Yaml.not_mayOpenMapping_of_shape hs hr (fun members hm => hobject ⟨members, hm⟩) hts hopen

/-! ## As KEY=VALUE -/

/-- **A JSON text makes no assignment.** -/
theorem rejects_keyValue_of_parse? {text : String} {v : Json} (h : Json.parse? text = some v) :
    Format.Rejects .keyValue text := by
  refine Format.rejects_iff.mpr fun vars hread => ?_
  obtain ⟨hequals, c, cs, htrim, hc⟩ := KeyValue.head_of_read hread
  obtain ⟨rest, hs, hr⟩ := Json.parse?_eq_some_iff.mp h
  obtain ⟨space, hspace, htext⟩ := exists_append_skipSpace text.toList
  rw [trimStart_of_shape hs] at htrim
  have hne : ∀ d : Char, d ≠ '#' → KeyValue.isKeyStart d = false → c ≠ d := by
    rintro d hnumber hd rfl
    exact KeyValue.ne_of_keyHead (hc.resolve_left hnumber) hd rfl
  -- Bare values and white space hold no equals sign, which an assignment needs.
  have hbare : ∀ {w : List Char}, Bare w → skipSpace text.toList ≠ w ++ rest := by
    intro w hw hsplit
    rw [htext, hsplit] at hequals
    rcases List.mem_append.mp hequals with hm | hm
    · exact absurd (hspace '=' hm) (by decide)
    · rcases List.mem_append.mp hm with hm | hm
      · exact absurd (hw.char '=' hm) (by decide)
      · exact absurd (hr '=' hm) (by decide)
  -- All other values start with a character that no key starts with.
  generalize hd : skipSpace text.toList = ds at hs hbare htrim
  cases hs with
  | word hw => exact hbare (bare_of_mem_words hw) rfl
  | number hn =>
      obtain ⟨w, rfl, hw⟩ := spelled_of_numerals? hn
      exact hbare (bare_of_spelled hw) rfl
  | string => exact hne '"' (by decide) (by decide) (List.cons.inj htrim).1.symm
  | emptyArray | array => exact hne '[' (by decide) (by decide) (List.cons.inj htrim).1.symm
  | emptyObject | object => exact hne '\x7b' (by decide) (by decide) (List.cons.inj htrim).1.symm

/-! ## In every format -/

/-- **A JSON text without members is no variables**, in whatever format it is read. -/
theorem rejects_of_parse? {text : String} {v : Json} (h : Json.parse? text = some v)
    (hv : ∀ members, v = .object members → members = []) :
    (∀ f, Format.Rejects f text) ∧ ∃ u, Chain.standard.resolve text = .error u := by
  have hall : ∀ f, Format.Rejects f text := by
    intro f
    cases f with
    | json =>
        refine Format.rejects_iff.mpr fun vars hread => vars.nonempty (hv _ ?_)
        have hmembers := Format.members_of_read hread
        simp only [Format.members, Format.jsonMembers, h] at hmembers
        split at hmembers
        · contradiction
        · rename_i members hm
          cases hmembers
          exact Option.some.inj hm
        · contradiction
    | yaml => exact rejects_yaml_of_parse? h hv
    | keyValue => exact rejects_keyValue_of_parse? h
  exact ⟨hall, Chain.exists_resolve_eq_error_iff.mpr fun f _ => hall f⟩

/-- A list of texts that look like members and assignments, with a mapping among them. -/
def decoys : String := "[ \"a=1\",\n\"b: 2 # ]\", \"\\n\\\"c: 3\", \x7b\"d\": [-1e2]\x7d ]\n"

theorem rejects_of_parse?_decoys :
    ∃ v, Json.parse? decoys = some v ∧ (∀ members, v = .object members → members = [])
      ∧ (∀ f, Format.Rejects f decoys) ∧ ∃ u, Chain.standard.resolve decoys = .error u := by
  have hparse : ∃ items, Json.parse? decoys = some (.array items) := ⟨_, rfl⟩
  obtain ⟨items, h⟩ := hparse
  have hv : ∀ members, Json.array items = .object members → members = [] := nofun
  exact ⟨.array items, h, hv, rejects_of_parse? h hv⟩

end Stencil
