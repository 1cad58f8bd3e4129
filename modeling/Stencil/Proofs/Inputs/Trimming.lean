import Stencil.Inputs
import Stencil.Json.Printer
import Stencil.Proofs.Json.Trimming
import Stencil.Proofs.KeyValue.Trimming
import Stencil.Proofs.Yaml.Trimming

/-!
# Variables without the white space around them

An input is looked up without the white space at its ends. Variables mean the same without it, as long as it is
white space to the format that reads them, too (`Format.Overlooks`): assignments always are, JSON has its own
notion of white space, and YAML has texts in which blanks stand for something.

Main statement: `resolve_of_lookup`.
-/

namespace Stencil

open Text

/-- Whether trimming cuts nothing off a text that a format would mind. It minds nothing about a text in which it
finds no mapping. -/
def Format.Overlooks (f : Format) (text : String) : Prop :=
  match f with
  | .json => (∃ members, Json.parse? (trimmed text) = some (.object members)) → Json.SpaceAround text.toList
  | .yaml =>
      (∃ members, yamlMembers text = .ok members ∨ yamlMembers (trimmed text) = .ok members) →
        Yaml.TrimsCleanly text.toList
  | .keyValue => True

/-- Whether a format of a chain is tried on a text: all before it reject the text. -/
def Chain.Tries (c : Chain) (text : String) (f : Format) : Prop :=
  ∃ before after, c.formats = before ++ f :: after ∧ ∀ g ∈ before, g.Rejects text

namespace Format

variable {text : String}

theorem toOption_read_congr {f : Format} {other : String} (hb : isBlankText other = isBlankText text)
    (h : (f.members other).toOption = (f.members text).toOption) :
    (f.read other).toOption = (f.read text).toOption := by
  unfold read
  rw [hb]
  split
  · rfl
  · generalize f.members other = found at h
    generalize f.members text = found' at h
    cases found <;> cases found' <;> cases h <;> rfl

theorem toOption_jsonMembers_eq_some_iff {members : Members Json} :
    (jsonMembers text).toOption = some members ↔ Json.parse? text = some (.object members) := by
  unfold jsonMembers
  split <;> simp_all [Except.toOption]

theorem toOption_jsonMembers_trimmed
    (ho : (∃ members, Json.parse? (trimmed text) = some (.object members)) → Json.SpaceAround text.toList) :
    (jsonMembers (trimmed text)).toOption = (jsonMembers text).toOption := by
  refine Option.ext fun members => ?_
  rw [toOption_jsonMembers_eq_some_iff, toOption_jsonMembers_eq_some_iff]
  exact ⟨fun h => Json.parse?_of_parse?_trimmed (ho ⟨members, h⟩) h, fun h => (Json.parse?_trimmed_of_parse? h).2⟩

theorem toOption_yamlMembers_trimmed (hb : isBlankText text = false)
    (ho : (∃ members, yamlMembers text = .ok members ∨ yamlMembers (trimmed text) = .ok members) →
      Yaml.TrimsCleanly text.toList) :
    (yamlMembers (trimmed text)).toOption = (yamlMembers text).toOption := by
  have hsame : Yaml.TrimsCleanly text.toList → yamlMembers (trimmed text) = yamlMembers text := by
    intro h
    have hnot : ¬ AllBlank text.toList := fun h => by
      rw [isBlankText_iff.mpr (trim_eq_nil_iff.mpr h)] at hb
      contradiction
    rw [yamlMembers, yamlMembers, Yaml.parse?_trimmed hnot h]
  cases htext : yamlMembers text with
  | ok members => rw [hsame (ho ⟨members, .inl htext⟩), htext]
  | error fault =>
      cases htrimmed : yamlMembers (trimmed text) with
      | ok members =>
          rw [← hsame (ho ⟨members, .inr htrimmed⟩), htrimmed] at htext
          contradiction
      | error fault' => rfl

/-- **A format reads a text the same without the white space that it overlooks.** -/
theorem read_trimmed {f : Format} (hb : isBlankText text = false) (ho : f.Overlooks text) :
    (f.read (trimmed text)).toOption = (f.read text).toOption := by
  cases f with
  | json =>
      refine toOption_read_congr (isBlankText_trimmed text) ?_
      rw [members, members]
      exact toOption_jsonMembers_trimmed ho
  | yaml =>
      refine toOption_read_congr (isBlankText_trimmed text) ?_
      rw [members, members]
      exact toOption_yamlMembers_trimmed hb ho
  | keyValue => exact KeyValue.keyValue_read_trimmed text

end Format

namespace Chain

theorem toOption_resolveWith_congr {a b : String} {fs : List Format}
    (h : ∀ before f after, fs = before ++ f :: after → (∀ g ∈ before, g.Rejects a) →
      (f.read a).toOption = (f.read b).toOption) :
    (resolveWith a fs).toOption = (resolveWith b fs).toOption := by
  induction fs with
  | nil => rfl
  | cons f fs ih =>
      have hf := h [] f fs rfl (by simp)
      cases ha : f.read a with
      | ok vars =>
          cases hb : f.read b with
          | ok vars' =>
              rw [ha, hb] at hf
              cases hf
              rw [resolveWith_cons_of_ok ha, resolveWith_cons_of_ok hb]
          | error rejection =>
              rw [ha, hb] at hf
              cases hf
      | error rejection =>
          cases hb : f.read b with
          | ok vars =>
              rw [ha, hb] at hf
              cases hf
          | error rejection' =>
              rw [toOption_resolveWith_cons ha, toOption_resolveWith_cons hb]
              refine ih fun before g after hfs hbefore => h (f :: before) g after (by rw [hfs]; rfl) ?_
              exact List.forall_mem_cons.mpr ⟨⟨rejection, ha⟩, hbefore⟩

/-- **A chain reads a text the same without white space** that the formats it tries overlook. -/
theorem toOption_resolve_trimmed {c : Chain} {text : String} (hb : isBlankText text = false)
    (ho : ∀ f, c.Tries (trimmed text) f → f.Overlooks text) :
    (c.resolve (trimmed text)).toOption = (c.resolve text).toOption :=
  toOption_resolveWith_congr fun before f after hfs hbefore =>
    Format.read_trimmed hb (ho f ⟨before, after, hfs, hbefore⟩)

end Chain

/-! ## Looking variables up -/

variable {fs : Files} {stdin : Content}

/-- **What is looked up means what the source has.** -/
theorem resolve_of_lookup {before after : List Source} {s : Source} {text : String}
    (hvalue : s.value fs stdin Input.templateVars = .ok (some text)) (hb : isBlankText text = false)
    (hbefore : ∀ t ∈ before, t.isBlankFor fs stdin Input.templateVars = true) (c : Chain)
    (ho : ∀ f, c.Tries (trimmed text) f → f.Overlooks text) :
    ∃ found, lookup fs stdin (before ++ s :: after) Input.templateVars = .ok (some found)
      ∧ found.value = trimmed text ∧ (c.resolve found.value).toOption = (c.resolve text).toOption := by
  refine ⟨⟨trimmed text, s⟩, ?_, rfl, Chain.toOption_resolve_trimmed hb ho⟩
  rw [lookup_append_of_blank hbefore, lookup, hvalue]
  simp [hb]

/-- A block scalar that drops the line ends behind it. -/
def stripped : String := "\na: |-\n  x\n\n"

theorem overlooks_stripped (f : Format) : f.Overlooks stripped := by
  cases f with
  | json =>
      have hnone : Json.parse? (trimmed stripped) = none := by
        rw [← Option.isNone_iff_eq_none]
        decide +kernel
      rintro ⟨members, h⟩
      rw [hnone] at h
      contradiction
  | yaml =>
      have hlast : Yaml.lastChomping? (trim stripped.toList) = some .strip := by decide +kernel
      have hlead : Yaml.BlankLines ['\n'] :=
        ⟨List.forall_mem_singleton.mpr (.inr rfl), fun c h => Option.some.inj h ▸ rfl⟩
      refine fun _ => ⟨['\n'], 0, ['\n', '\n'], by decide +kernel, hlead, .inl rfl, by decide, by decide,
        fun h => absurd h (by decide), fun chomping h => ?_⟩
      cases hlast.symm.trans h
      exact .inr ⟨rfl, List.all_eq_true.mp (by decide)⟩
  | keyValue => trivial

theorem resolve_of_lookup_stripped :
    ∃ found, lookup ⟨[], []⟩ (.text "") [.arguments [], .arguments [(Input.templateVars, stripped)]]
          Input.templateVars = .ok (some found)
      ∧ found.value = trimmed stripped
      ∧ (Chain.standard.resolve found.value).toOption = (Chain.standard.resolve stripped).toOption :=
  @resolve_of_lookup ⟨[], []⟩ (.text "") [.arguments []] [] (.arguments [(Input.templateVars, stripped)]) stripped
    rfl (by decide +kernel) (List.forall_mem_singleton.mpr rfl) Chain.standard fun f _ => overlooks_stripped f

/-- A block scalar that keeps one line end behind it. -/
def clipped : String := "a: |\n  x\n"

/-- A text that ends in a block scalar does not mean the same without the line end of that scalar. -/
theorem resolve_ne_of_lookup_clipped :
    Source.value ⟨[], []⟩ (.text "") (.arguments [(Input.templateVars, clipped)]) Input.templateVars
        = .ok (some clipped)
      ∧ isBlankText clipped = false
      ∧ ∃ found, lookup ⟨[], []⟩ (.text "") [.arguments [(Input.templateVars, clipped)]] Input.templateVars
            = .ok (some found)
        ∧ (Chain.standard.resolve found.value).toOption ≠ (Chain.standard.resolve clipped).toOption := by
  have hblank : isBlankText clipped = false := by decide +kernel
  refine ⟨rfl, hblank, ⟨trimmed clipped, .arguments [(Input.templateVars, clipped)]⟩, ?_, fun h => ?_⟩
  · have hvalue : Source.value ⟨[], []⟩ (.text "") (.arguments [(Input.templateVars, clipped)]) Input.templateVars
        = .ok (some clipped) := rfl
    simp [lookup, hvalue, hblank]
  · have hne : ((Chain.standard.resolve (trimmed clipped)).toOption.map fun r => r.vars.toJson.text)
        ≠ (Chain.standard.resolve clipped).toOption.map fun r => r.vars.toJson.text := by decide +kernel
    exact hne (congrArg _ h)

end Stencil
