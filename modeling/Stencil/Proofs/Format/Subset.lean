import Stencil.Proofs.Format.Chain
import Stencil.Proofs.Members
import Stencil.Proofs.Yaml.Written.Value

/-!
# What of JSON is YAML

YAML reads an object of JSON in most cases, and then with the same names, but not in all: it has its own mind about
characters above the basic plane that are escaped, names that are given twice or are long, integers of more than 64
bits, tabs, controls and marks between documents. `IsShared` says what a text of JSON has to keep to.

Main statement: `read_yaml_iff_of_read_json`.
-/

namespace Stencil

open Json (Document Piece Written AllSpace)
open Yaml

/-- Whether YAML takes a piece of a JSON text: an integer does not need more than 64 bits unless it needs more than
128; a string holds no pair of surrogates and no mark between documents behind the end of a line; a name is near
its colon; and the names of an object are distinct. -/
def isSharedPiece : Piece → Bool
  | .literal w => !isOversized w.chars
  | .string q => isReadable q
  | .key l => isNear l
  | .names ns => decide ns.Nodup

/-- Whether YAML takes a document that is written in JSON: its characters are allowed, there is no tab in front of it
or behind the end of a line that follows it, and every piece can be taken. -/
structure IsSharedDocument (d : Document) : Prop where
  allowed : ∀ c ∈ d.text, isAllowed c = true
  lead : '\t' ∉ d.lead.1
  trail : meetsTab false d.trail.1 = false
  piece : ∀ p ∈ (Written.object d.members).pieces, isSharedPiece p = true

/-- Whether a text is an object that is written in JSON and that YAML takes too. -/
def IsShared (text : String) : Prop :=
  ∃ d : Document, text.toList = d.text ∧ d.members.levels < Json.maxDepth ∧ IsSharedDocument d

variable {text : String} {d : Document}

/-! ## Conditions -/

theorem isSharedPiece_eq (p : Piece) : isSharedPiece p = (isLegible p && isKeyed p && isValued p) := by
  cases p <;> simp [isSharedPiece, isLegible, isKeyed, isValued]

theorem forall_isSharedPiece_iff (ps : List Piece) :
    (∀ p ∈ ps, isSharedPiece p = true)
      ↔ ps.all isLegible = true ∧ ps.all isKeyed = true ∧ ps.all isValued = true := by
  simp only [isSharedPiece_eq, Bool.and_eq_true, List.all_eq_true]
  exact ⟨fun h => ⟨fun p hp => (h p hp).1.1, fun p hp => (h p hp).1.2, fun p hp => (h p hp).2⟩,
    fun ⟨hl, hk, hv⟩ p hp => ⟨⟨hl p hp, hk p hp⟩, hv p hp⟩⟩

theorem meetsTab_true (w : List Char) : meetsTab true w = decide ('\t' ∈ w) := by
  induction w with
  | nil => rfl
  | cons c w ih => simp [meetsTab, ih, beq_eq_decide, eq_comm]

theorem isSharedDocument_iff :
    IsSharedDocument d ↔ isCut d = true ∧ d.members.pieces.all isKeyed = true
      ∧ (Written.object d.members).pieces.all isValued = true := by
  have hcut : isCut d = true ↔ (∀ c ∈ d.text, isAllowed c = true) ∧ '\t' ∉ d.lead.1
      ∧ meetsTab false d.trail.1 = false ∧ (Written.object d.members).pieces.all isLegible = true := by
    simp [isCut, meetsTab_true, Written.pieces, isLegible, and_assoc]
  have hkeyed : (Written.object d.members).pieces.all isKeyed = d.members.pieces.all isKeyed := rfl
  rw [hcut, ← hkeyed]
  constructor
  · rintro ⟨ha, hl, ht, hp⟩
    obtain ⟨hlegible, hkey, hvalue⟩ := (forall_isSharedPiece_iff _).mp hp
    exact ⟨⟨ha, hl, ht, hlegible⟩, hkey, hvalue⟩
  · rintro ⟨⟨ha, hl, ht, hlegible⟩, hkey, hvalue⟩
    exact ⟨ha, hl, ht, (forall_isSharedPiece_iff _).mpr ⟨hlegible, hkey, hvalue⟩⟩

/-! ## Reading as YAML -/

/-- **A document is a YAML text if YAML takes it.** -/
theorem isSome_parse?_document (ht : text.toList = d.text) (hl : d.members.levels < Json.maxDepth) :
    (Yaml.parse? text).isSome = true ↔ IsSharedDocument d := by
  have hlevels : d.members.levels < Yaml.maxDepth := Nat.lt_trans hl (by decide)
  rw [isSharedDocument_iff, ← isSome_ofTree?_treeOf, Yaml.parse?, ht, ofText?_document hlevels]
  cases isCut d
  · simp
  cases d.members.pieces.all isKeyed
  · simp
  · simp [treeOf]

/-- The members of a document have the names that are written. -/
theorem exists_yamlMembers_of_document (ht : text.toList = d.text) (hl : d.members.levels < Json.maxDepth)
    (h : IsSharedDocument d) :
    ∃ ms, Format.yamlMembers text = .ok ms ∧ Members.keys ms = d.members.names ∧ d.members.names.Nodup := by
  have hlevels : d.members.levels < Yaml.maxDepth := Nat.lt_trans hl (by decide)
  have hnodup : d.members.names.Nodup := by
    simpa [isSharedPiece] using h.piece (.names d.members.names) List.mem_cons_self
  obtain ⟨value, hvalue⟩ := Option.isSome_iff_exists.mp ((isSome_parse?_document ht hl).mpr h)
  obtain ⟨hcut, hkeyed, -⟩ := isSharedDocument_iff.mp h
  have htree : Tree.ofText? text.toList = some (.mapping none (treesOfMembers d.members)) := by
    rw [ht, ofText?_document hlevels, hcut, hkeyed]
    rfl
  have hmapping : ∃ es, valuesOfEntries? (treesOfMembers d.members) = some es ∧ value = .mapping es := by
    rw [Yaml.parse?, htree, Option.bind_some, Value.ofTree?] at hvalue
    obtain ⟨es, hes, hvalue⟩ := Option.bind_eq_some_iff.mp hvalue
    split at hvalue
    · exact ⟨es, hes, (Option.some.inj hvalue).symm⟩
    · contradiction
  obtain ⟨es, hes, rfl⟩ := hmapping
  obtain ⟨ms, hms, hnames⟩ := exists_jsonMembers_of_treesOfMembers d.members hes
  refine ⟨ms, ?_, hnames, hnodup⟩
  rw [← hnames] at hnodup
  simp [Format.yamlMembers, hvalue, Format.yamlValueMembers, Value.mapping?, hms, Members.ofEntries_of_nodup hnodup]

theorem read_yaml_of_document (ht : text.toList = d.text) (hl : d.members.levels < Json.maxDepth)
    (hb : ¬ Text.AllBlank text.toList) (h : IsSharedDocument d) :
    ∃ found, Format.read .yaml text = .ok found := by
  obtain ⟨ms, hms, hnames, -⟩ := exists_yamlMembers_of_document ht hl h
  have hne : ms ≠ [] := by
    rintro rfl
    cases hd : d.members <;> simp [hd, Json.WrittenMembers.names] at hnames
  exact ⟨⟨ms, hne⟩, Format.read_of_members hb hms⟩

theorem isSharedDocument_of_read_yaml (ht : text.toList = d.text) (hl : d.members.levels < Json.maxDepth)
    {found : Variables} (h : Format.read .yaml text = .ok found) : IsSharedDocument d := by
  have hmembers : Format.yamlMembers text = .ok found.members := Format.members_of_read h
  rw [← isSome_parse?_document ht hl]
  cases hparse : Yaml.parse? text with
  | none => simp [Format.yamlMembers, hparse] at hmembers
  | some value => rfl

/-! ## What JSON reads -/

/-- **YAML reads what JSON reads if the text is shared**, and only then; the names are the same, in the same
order. -/
theorem read_yaml_iff_of_read_json {vars : Variables} (h : Format.read .json text = .ok vars) :
    ((∃ found, Format.read .yaml text = .ok found) ↔ IsShared text)
      ∧ ∀ found, Format.read .yaml text = .ok found → found.names = vars.names := by
  have hparse := parse?_of_read_json h
  obtain ⟨d, es, ht, hl, hes, hnames⟩ := Json.exists_document_of_parse? hparse vars.nonempty
  refine ⟨⟨?_, ?_⟩, ?_⟩
  · rintro ⟨found, hfound⟩
    exact ⟨d, ht, hl, isSharedDocument_of_read_yaml ht hl hfound⟩
  · rintro ⟨d, ht, hl, hshared⟩
    exact read_yaml_of_document ht hl (Json.not_allBlank_of_parse? hparse) hshared
  · intro found hfound
    obtain ⟨ms, hms, hkeys, hnodup⟩ :=
      exists_yamlMembers_of_document ht hl (isSharedDocument_of_read_yaml ht hl hfound)
    have hmembers : Format.yamlMembers text = .ok found.members := Format.members_of_read hfound
    obtain rfl : ms = found.members := Except.ok.inj (hms.symm.trans hmembers)
    have hentries : vars.members = es := by
      rw [hnames] at hnodup
      rw [hes, Members.ofEntries_of_nodup hnodup]
    rw [Variables.names, Variables.names, hkeys, hnames, hentries]

/-- An object that YAML takes, with an escaped letter, a name that comes again further in, and a tab. -/
def sharedText : String := " \x7b\"b\": [true, \"\\u00e9\"],\n\t\"a\" : \x7b\"b\": null\x7d\x7d\n"

theorem read_yaml_iff_of_read_json_sharedText :
    ∃ vars found, Format.read .json sharedText = .ok vars ∧ Format.read .yaml sharedText = .ok found
      ∧ IsShared sharedText ∧ found.names = vars.names := by
  have hjson : (Format.read .json sharedText).isOk = true := by decide +kernel
  have hyaml : (Format.read .yaml sharedText).isOk = true := by decide +kernel
  obtain ⟨vars, h⟩ := exists_read_of_isOk hjson
  obtain ⟨found, hfound⟩ := exists_read_of_isOk hyaml
  obtain ⟨hshared, hnames⟩ := read_yaml_iff_of_read_json h
  exact ⟨vars, found, h, hfound, hshared.mp ⟨found, hfound⟩, hnames found hfound⟩

/-- A character above the basic plane, escaped as JSON wants it. -/
def surrogateText : String := "\x7b\"a\":\"\\ud83d\\ude00\"\x7d"

/-- **YAML does not read all that JSON reads.** -/
theorem not_forall_read_yaml_of_read_json :
    ¬ ∀ text vars, Format.read .json text = .ok vars →
      ∃ found, Format.read .yaml text = .ok found ∧ found.names = vars.names := by
  intro h
  have hjson : (Format.read .json surrogateText).isOk = true := by decide +kernel
  have hyaml : (Format.read .yaml surrogateText).isOk = false := by decide +kernel
  obtain ⟨vars, hvars⟩ := exists_read_of_isOk hjson
  obtain ⟨found, hfound, -⟩ := h surrogateText vars hvars
  rw [hfound] at hyaml
  cases hyaml

end Stencil
