import Mathlib.Logic.Relation
import Stencil.Proofs.Yaml.Progress

/-!
# Steps of a lexer

The run of a lexer, one token at a time. How many steps a run is given does not matter, as long as there is one
for each character and one for the end (`run_of_ends`), so what is shown of the tokens of a text can be shown
along its steps (`Steps`, `Reaches`).

Main statements: `Reaches.ends_iff` and `tokens?_eq_some_iff`.
-/

namespace Stencil.Yaml.Lexer

variable {s t u : Lexer} {ts : List Token} {n : Nat}

/-- Whether one token is cut off between two places. -/
def Steps (s t : Lexer) : Prop :=
  ∃ u c cs, s.ready? = some u ∧ u.rest = c :: cs
    ∧ (u.closeBlocks (u.position.column + 1)).token c cs = some t

/-- Whether some tokens are cut off between two places. -/
def Reaches : Lexer → Lexer → Prop := Relation.ReflTransGen Steps

/-- Whether a run that is given steps enough comes to the end of the text with some tokens. -/
def Ends (s : Lexer) (ts : List Token) : Prop := ∃ n, run n s = some ts

/-! ## Runs -/

theorem run_of_steps (h : Steps s t) (n : Nat) : run (n + 1) s = run n t := by
  obtain ⟨u, c, cs, hu, hr, ht⟩ := h
  rw [run_succ, hu, Option.bind_some]
  simp only [hr, ht, Option.bind_some]

theorem run_at_end (hu : s.ready? = some u) (hr : u.rest = []) (n : Nat) : run (n + 1) s = u.finish := by
  rw [run_succ, hu, Option.bind_some]
  simp only [hr]

/-- A run makes a step or is at the end of the text. -/
theorem steps_or_end_of_run (h : run (n + 1) s = some ts) :
    (∃ t, Steps s t ∧ run n t = some ts) ∨ ∃ u, s.ready? = some u ∧ u.rest = [] ∧ u.finish = some ts := by
  rw [run_succ] at h
  obtain ⟨u, hu, h⟩ := Option.bind_eq_some_iff.mp h
  split at h
  · rename_i hr
    exact .inr ⟨u, hu, hr, h⟩
  · rename_i c cs hr
    obtain ⟨t, ht, h⟩ := Option.bind_eq_some_iff.mp h
    exact .inl ⟨t, ⟨u, c, cs, hu, hr, ht⟩, h⟩

/-- **Every step takes something from the text.** -/
theorem Steps.length_lt (h : Steps s t) : t.rest.length < s.rest.length := by
  obtain ⟨u, c, cs, hu, hr, ht⟩ := h
  have hready : u.rest <:+ s.rest := (ready_of_ready? hu).rest ▸ suffix_skipToToken ..
  have hblocks : (u.closeBlocks (u.position.column + 1)).rest = c :: cs := by rw [rest_closeBlocks, hr]
  have htoken : t.rest <:+ cs := (advances_token hblocks ht).1
  have hl := hready.length_le
  rw [hr, List.length_cons] at hl
  have hl' := htoken.length_le
  omega

/-- **One step for each character and one for the end are enough.** -/
theorem run_of_ends (h : Ends s ts) (hn : s.rest.length < n) : run n s = some ts := by
  obtain ⟨m, h⟩ := h
  induction m generalizing s n with
  | zero => cases h
  | succ m ih =>
      obtain ⟨n, rfl⟩ := Nat.exists_eq_succ_of_ne_zero (n := n) (by omega)
      rcases steps_or_end_of_run h with ⟨t, hs, ht⟩ | ⟨u, hu, hr, hf⟩
      · have hlt := hs.length_lt
        rw [run_of_steps hs]
        exact ih (by omega) ht
      · rw [run_at_end hu hr, hf]

/-- More steps than there are characters make no difference. -/
theorem run_eq_run {m : Nat} (hn : s.rest.length < n) (hm : s.rest.length < m) : run n s = run m s :=
  Option.ext fun _ => ⟨fun h => run_of_ends ⟨n, h⟩ hm, fun h => run_of_ends ⟨m, h⟩ hn⟩

/-- A run depends on its place in so far as the next token does. -/
theorem run_congr (h : s.atToken = t.atToken) (n : Nat) : run n s = run n t := by
  cases n with
  | zero => rfl
  | succ n => rw [run_succ, run_succ, ready?, ready?, h]

/-! ## Ends -/

theorem Steps.ends_iff (h : Steps s t) : Ends s ts ↔ Ends t ts := by
  constructor
  · rintro ⟨n, hn⟩
    have hrun := run_of_ends ⟨n, hn⟩ (Nat.lt_succ_self s.rest.length)
    rw [run_of_steps h] at hrun
    exact ⟨_, hrun⟩
  · rintro ⟨n, hn⟩
    exact ⟨n + 1, (run_of_steps h n).trans hn⟩

/-- **What the run of a lexer ends in does not change along its steps.** -/
theorem Reaches.ends_iff (h : Reaches s t) : Ends s ts ↔ Ends t ts := by
  induction h with
  | refl => rfl
  | tail _ hs ih => exact ih.trans hs.ends_iff

theorem Ends.unique {ts' : List Token} (h : Ends s ts) (h' : Ends s ts') : ts = ts' := by
  have hrun := run_of_ends h (Nat.lt_succ_self _)
  rw [run_of_ends h' (Nat.lt_succ_self _)] at hrun
  exact (Option.some.inj hrun).symm

/-- **The tokens of a text are what a run from its start ends in.** -/
theorem tokens?_eq_some_iff {text : List Char} :
    tokens? text = some ts ↔ text.all isAllowed = true ∧ Ends (start text) ts := by
  unfold tokens?
  split
  · rename_i ha
    exact ⟨fun h => ⟨ha, _, h⟩, fun h => run_of_ends h.2 (Nat.lt_succ_self _)⟩
  · rename_i ha
    simp [ha]

end Stencil.Yaml.Lexer
