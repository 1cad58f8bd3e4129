import Stencil.Proofs.Format.Chain

/-!
# Chains however they were built

A chain is built by adding formats to another, and a format that it has already is not added again. So its
formats are those of the chain it started from and, after them, the first occurrences of the others.

What a chain makes of a text follows from its formats alone. It reads the text as the first format does that
can; where none can, each format of the chain says once, in its turn, what it has against the text. A longer
chain therefore reads a text as the shorter one did that it started from, and a chain with the same formats in
another order reads the same texts, though perhaps in another format.

Main statement: `resolve_addAll`.
-/

namespace Stencil

namespace Chain

variable {text : String} {fs : List Format} {found : Resolved} {u : Unresolved}

/-! ## The formats of a chain -/

/-- **Added formats come after the others**, each at its first occurrence. -/
theorem formats_addAll (c : Chain) (fs : List Format) :
    (c.addAll fs).formats = c.formats ++ (fs.removeAll c.formats).eraseDups := by
  induction fs generalizing c with
  | nil => simp [addAll]
  | cons f fs ih =>
      rw [show c.addAll (f :: fs) = (c.add f).addAll fs from rfl, ih, formats_add,
        List.cons_removeAll]
      by_cases hf : f ∈ c.formats
      · simp [hf]
      · have hdrop : (fs.removeAll c.formats).filter (fun g => !(g == f))
            = fs.removeAll (c.formats ++ [f]) := by
          simp only [List.removeAll, List.filter_filter]
          refine List.filter_congr fun g _ => ?_
          by_cases hg : g = f <;> simp [hg]
        simp [hf, List.eraseDups_cons, hdrop]

/-! ## What a chain makes of a text -/

/-- Whether variables are those that the first format of a chain that reads a text reads there. -/
def FirstReads (c : Chain) (text : String) (found : Resolved) : Prop :=
  ∃ before after, c.formats = before ++ found.format :: after ∧ (∀ f ∈ before, f.Rejects text)
    ∧ found.format.read text = .ok found.vars

/-- Whether rejections are those of all formats of a chain, one of each and in order. -/
def AllReject (c : Chain) (text : String) (u : Unresolved) : Prop :=
  u.attempted = c.formats ∧ ∀ r ∈ u.rejections, r.1.read text = .error r.2

theorem resolveWith_eq_error_iff :
    resolveWith text fs = .error u ↔
      u.attempted = fs ∧ ∀ r ∈ u.rejections, r.1.read text = .error r.2 := by
  induction fs generalizing u with
  | nil =>
      obtain ⟨rejections⟩ := u
      cases rejections <;> simp [resolveWith, Unresolved.attempted]
  | cons f fs ih =>
      cases hr : f.read text with
      | ok vars =>
          rw [resolveWith_cons_of_ok hr]
          -- The search ends here with success, and `f` cannot be among those that rejected the text.
          refine ⟨fun h => by contradiction, fun h => ?_⟩
          obtain ⟨hattempted, hall⟩ := h
          obtain ⟨r, hmem, rfl⟩ : ∃ r ∈ u.rejections, r.1 = f :=
            List.mem_map.mp (show f ∈ u.attempted from hattempted ▸ List.mem_cons_self)
          rw [hall r hmem] at hr
          contradiction
      | error rejection =>
          rw [resolveWith_cons_eq_error_iff hr]
          constructor
          · rintro ⟨w, hw, rfl⟩
            obtain ⟨hattempted, hall⟩ := ih.mp hw
            exact ⟨congrArg (f :: ·) hattempted, List.forall_mem_cons.mpr ⟨hr, hall⟩⟩
          · rintro ⟨hattempted, hall⟩
            obtain ⟨rejections⟩ := u
            cases rejections with
            | nil => simp [Unresolved.attempted] at hattempted
            | cons r rejections =>
                obtain ⟨rfl, htail⟩ := List.cons.inj hattempted
                obtain ⟨hhead, hrest⟩ := List.forall_mem_cons.mp hall
                rw [hr] at hhead
                cases hhead
                exact ⟨⟨rejections⟩, ih.mpr ⟨htail, hrest⟩, rfl⟩

/-- **A chain that fails tells what each of its formats had against the text.** -/
theorem resolve_eq_error_iff {c : Chain} : c.resolve text = .error u ↔ c.AllReject text u :=
  resolveWith_eq_error_iff

/-- The rejection of a format is what the format itself has against the text. -/
theorem AllReject.rejection?_eq_some_iff {c : Chain} (h : c.AllReject text u) (f : Format)
    (rejection : Rejection) :
    u.rejection? f = some rejection ↔ f ∈ c.formats ∧ f.read text = .error rejection := by
  obtain ⟨hattempted, hall⟩ := h
  rw [Unresolved.rejection?, Option.map_eq_some_iff]
  constructor
  · rintro ⟨r, hfind, rfl⟩
    obtain rfl : r.1 = f := by simpa using List.find?_some hfind
    have hmem := List.mem_of_find?_eq_some hfind
    exact ⟨hattempted ▸ List.mem_map_of_mem hmem, hall r hmem⟩
  · rintro ⟨hf, hread⟩
    obtain ⟨r, hmem, rfl⟩ : ∃ r ∈ u.rejections, r.1 = f :=
      List.mem_map.mp (show f ∈ u.attempted from hattempted ▸ hf)
    cases hfind : u.rejections.find? fun s => s.1 = r.1 with
    | none => simpa using List.find?_eq_none.mp hfind r hmem
    | some s =>
        have hs : s.1 = r.1 := by simpa using List.find?_some hfind
        have hsread := hall s (List.mem_of_find?_eq_some hfind)
        rw [hs, hread] at hsread
        cases hsread
        exact ⟨s, rfl, rfl⟩

/-- A chain reads a text exactly when one of its formats does. -/
theorem exists_resolve_eq_ok_iff {c : Chain} :
    (∃ found, c.resolve text = .ok found) ↔ ∃ f ∈ c.formats, ∃ vars, f.read text = .ok vars := by
  have herror : (∃ u, c.resolve text = .error u) ↔ ∀ f ∈ c.formats, f.Rejects text :=
    exists_resolve_eq_error_iff
  simp only [Format.rejects_iff] at herror
  cases hc : c.resolve text with
  | ok found =>
      rw [hc] at herror
      simpa using herror
  | error u =>
      rw [hc] at herror
      simpa using herror

/-- A longer chain reads a text as the chain did that it started from. -/
theorem resolve_addAll_of_ok {c : Chain} (h : c.resolve text = .ok found) (fs : List Format) :
    (c.addAll fs).resolve text = .ok found := by
  obtain ⟨before, after, hformats, hbefore, hread⟩ := resolve_eq_ok_iff.mp h
  refine resolve_eq_ok_iff.mpr ⟨before, after ++ (fs.removeAll c.formats).eraseDups, ?_, hbefore, hread⟩
  rw [formats_addAll, hformats]
  simp

/-- Chains with the same formats, in whatever order, read the same texts. -/
theorem exists_resolve_congr {c d : Chain} (h : ∀ f, f ∈ d.formats ↔ f ∈ c.formats) (text : String) :
    (∃ found, d.resolve text = .ok found) ↔ ∃ found, c.resolve text = .ok found := by
  simp only [exists_resolve_eq_ok_iff, h]

/-- **What a chain makes of a text**, whichever chain it was started from and whatever was added to it. Its
formats are those it started with and the first occurrences of the others, none of them twice. It succeeds if
one of them reads the text, and then has the variables of the first that does, of which there is one at least; if
it fails it has one rejection of each format, in order, and that is what the format alone has against the text. A
success of the chain it was started from stands, and the order of its formats does not decide whether it
succeeds. -/
theorem resolve_addAll (start : Chain) (fs : List Format) (text : String) :
    (start.addAll fs).formats = start.formats ++ (fs.removeAll start.formats).eraseDups
      ∧ (start.addAll fs).formats.Nodup
      ∧ ((∃ found, (start.addAll fs).resolve text = .ok found) ↔
          ∃ f ∈ (start.addAll fs).formats, ∃ vars, f.read text = .ok vars)
      ∧ (∀ found, (start.addAll fs).resolve text = .ok found ↔
          (start.addAll fs).FirstReads text found ∧ 0 < found.vars.size)
      ∧ (∀ u, (start.addAll fs).resolve text = .error u ↔ (start.addAll fs).AllReject text u)
      ∧ (∀ u, (start.addAll fs).resolve text = .error u → ∀ f rejection,
          u.rejection? f = some rejection ↔
            f ∈ (start.addAll fs).formats ∧ f.read text = .error rejection)
      ∧ (∀ found, start.resolve text = .ok found → (start.addAll fs).resolve text = .ok found)
      ∧ ∀ d : Chain, (∀ f, f ∈ d.formats ↔ f ∈ (start.addAll fs).formats) →
          ((∃ found, d.resolve text = .ok found) ↔ ∃ found, (start.addAll fs).resolve text = .ok found) := by
  refine ⟨formats_addAll start fs, (start.addAll fs).nodup, exists_resolve_eq_ok_iff, fun found => ?_,
    fun u => resolve_eq_error_iff, fun u hu => ?_, fun found h => resolve_addAll_of_ok h fs,
    fun d h => exists_resolve_congr h text⟩
  · rw [resolve_eq_ok_iff]
    exact ⟨fun h => ⟨h, found.vars.size_pos⟩, And.left⟩
  · exact (resolve_eq_error_iff.mp hu).rejection?_eq_some_iff

end Chain

end Stencil
