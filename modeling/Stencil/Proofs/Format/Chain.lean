import Stencil.Format.Chain
import Stencil.Proofs.Text.Trim

/-!
# Which format of a chain wins

The formats of a chain are tried in order, so the one that reads a text is the first that can, and a chain
fails exactly on the texts that all of its formats reject.

Main statements: `resolve_eq_ok_iff` and `exists_resolve_eq_error_iff`.
-/

namespace Stencil

/-- Whether a format has something against a text. -/
def Format.Rejects (f : Format) (text : String) : Prop := ∃ rejection, f.read text = .error rejection

theorem exists_read_of_isOk {f : Format} {text : String} (h : (f.read text).isOk = true) :
    ∃ vars, f.read text = .ok vars := by
  cases hread : f.read text with
  | error rejection =>
      rw [hread] at h
      contradiction
  | ok vars => exact ⟨vars, rfl⟩

namespace Format

variable {f : Format} {text : String} {vars : Variables}

theorem rejects_iff : f.Rejects text ↔ ∀ vars, f.read text ≠ .ok vars := by
  unfold Rejects
  cases f.read text <;> simp

theorem members_of_read (h : f.read text = .ok vars) : f.members text = .ok vars.members := by
  unfold read at h
  split at h
  · contradiction
  · split at h
    · contradiction
    · rename_i members hm
      split at h
      · contradiction
      · rename_i found hf
        cases h
        rw [hm, Variables.members_of_ofMembers? hf]

theorem read_of_members (hb : ¬ Text.AllBlank text.toList) (h : f.members text = .ok vars.members) :
    f.read text = .ok vars := by
  have hblank : Text.isBlankText text = false := by
    rw [← Bool.not_eq_true, Text.isBlankText_iff, Text.trim_eq_nil_iff]
    exact hb
  have hm : Variables.ofMembers? vars.members = some vars := by
    obtain ⟨members, hne⟩ := vars
    cases members with
    | nil => exact absurd rfl hne
    | cons e es => rfl
  simp [read, hblank, h, hm]

end Format

theorem parse?_of_read_json {text : String} {vars : Variables} (h : Format.read .json text = .ok vars) :
    Json.parse? text = some (.object vars.members) := by
  have hmembers := Format.members_of_read h
  simp only [Format.members, Format.jsonMembers] at hmembers
  split at hmembers
  · contradiction
  · rename_i members hparse
    cases hmembers
    exact hparse
  · contradiction

namespace Chain

variable {text : String} {f : Format} {fs : List Format} {vars : Variables} {rejection : Rejection}
  {found : Resolved} {u : Unresolved}

/-! ## One format -/

/-- A format that reads the text ends the search. -/
theorem resolveWith_cons_of_ok (hr : f.read text = .ok vars) (fs : List Format) :
    resolveWith text (f :: fs) = .ok ⟨vars, f⟩ := by
  rw [resolveWith, hr]

/-- A format that rejects the text leaves it to the others. -/
theorem resolveWith_cons_eq_ok_iff (hr : f.read text = .error rejection) :
    resolveWith text (f :: fs) = .ok found ↔ resolveWith text fs = .ok found := by
  rw [resolveWith, hr]
  cases resolveWith text fs <;> simp

theorem toOption_resolveWith_cons (hr : f.read text = .error rejection) (fs : List Format) :
    (resolveWith text (f :: fs)).toOption = (resolveWith text fs).toOption := by
  rw [resolveWith, hr]
  cases resolveWith text fs <;> rfl

/-- What a format had against the text comes in front of what the others had. -/
theorem resolveWith_cons_eq_error_iff (hr : f.read text = .error rejection) :
    resolveWith text (f :: fs) = .error u ↔
      ∃ w, resolveWith text fs = .error w ∧ u = ⟨(f, rejection) :: w.rejections⟩ := by
  rw [resolveWith, hr]
  cases resolveWith text fs <;> simp [eq_comm]

/-! ## All formats -/

theorem resolveWith_eq_ok_iff :
    resolveWith text fs = .ok found ↔
      ∃ before after, fs = before ++ found.format :: after ∧ (∀ f ∈ before, f.Rejects text)
        ∧ found.format.read text = .ok found.vars := by
  induction fs with
  | nil => simp [resolveWith]
  | cons f fs ih =>
      cases hr : f.read text with
      | ok vars =>
          rw [resolveWith_cons_of_ok hr]
          constructor
          · rintro ⟨⟩
            exact ⟨[], fs, rfl, by simp, hr⟩
          · rintro ⟨before, after, hfs, hbefore, hread⟩
            obtain ⟨rfl, hfs⟩ | ⟨before, rfl, -⟩ := List.cons_eq_append_iff.mp hfs
            · obtain ⟨rfl, -⟩ := List.cons.inj hfs
              obtain rfl := Except.ok.inj (hr.symm.trans hread)
              rfl
            · -- Another format is said to be the first that reads the text.
              obtain ⟨rejection, hj⟩ := hbefore f List.mem_cons_self
              rw [hr] at hj
              contradiction
      | error rejection =>
          rw [resolveWith_cons_eq_ok_iff hr, ih]
          constructor
          · rintro ⟨before, after, rfl, hbefore, hread⟩
            exact ⟨f :: before, after, rfl, List.forall_mem_cons.mpr ⟨⟨rejection, hr⟩, hbefore⟩, hread⟩
          · rintro ⟨before, after, hfs, hbefore, hread⟩
            obtain ⟨rfl, hfs⟩ | ⟨before, rfl, rfl⟩ := List.cons_eq_append_iff.mp hfs
            · obtain ⟨rfl, -⟩ := List.cons.inj hfs
              rw [hr] at hread
              contradiction
            · exact ⟨before, after, rfl, (List.forall_mem_cons.mp hbefore).2, hread⟩

theorem exists_resolveWith_eq_error_iff :
    (∃ u, resolveWith text fs = .error u) ↔ ∀ f ∈ fs, f.Rejects text := by
  induction fs with
  | nil => simp [resolveWith]
  | cons f fs ih =>
      rw [List.forall_mem_cons, ← ih]
      cases hr : f.read text with
      | ok vars => simp [resolveWith_cons_of_ok hr, Format.Rejects, hr]
      | error rejection =>
          have hf : f.Rejects text := ⟨rejection, hr⟩
          simp only [resolveWith_cons_eq_error_iff hr]
          rw [exists_comm]
          simp [hf]

/-- **The first format that reads a text wins.** -/
theorem resolve_eq_ok_iff {c : Chain} :
    c.resolve text = .ok found ↔
      ∃ before after, c.formats = before ++ found.format :: after ∧ (∀ f ∈ before, f.Rejects text)
        ∧ found.format.read text = .ok found.vars :=
  resolveWith_eq_ok_iff

/-- **A chain fails on the texts that all of its formats reject.** -/
theorem exists_resolve_eq_error_iff {c : Chain} :
    (∃ u, c.resolve text = .error u) ↔ ∀ f ∈ c.formats, f.Rejects text :=
  exists_resolveWith_eq_error_iff

end Chain

end Stencil
