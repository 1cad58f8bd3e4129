import Stencil.Proofs.Rendering
import Stencil.Proofs.Template.Harmless

/-!
# Escaping has no hole

A plain template that is rendered under a policy that escapes makes a text that is harmless in a document:
no mark of a tag or an attribute stands in it, and every ampersand starts an entity. This holds for all
variables, so no text that they hold can break out of its place.

The template's own text, in which none of the five characters stands, is all that is not escaped. Loops,
branches, operators and the plain filters never mark a text as safe, and variables hold no marked text.

Main statement: `render_harmless`.
-/

namespace Stencil

open Template

namespace Policy

variable {p : Policy} {template : String} {v : Variables}

/-- Whether a template is plain: text in which none of the five characters stands, printed expressions,
loops and branches, with plain expressions throughout. -/
def Plain (p : Policy) (template : String) : Prop :=
  ∃ body, p.statements template = .ok body ∧ PlainStmts body

/-- A template is plain if its statements are found to be. -/
theorem plain_of_arePlain {n : Nat} (h : (p.statements template).toOption.any (arePlain n) = true) :
    p.Plain template := by
  obtain ⟨body, hbody, hplain⟩ := (Option.any_eq_true _ _).mp h
  refine ⟨body, ?_, plainStmts_of_arePlain body hplain⟩
  cases hs : p.statements template with
  | error fault =>
      rw [hs] at hbody
      contradiction
  | ok body' =>
      rw [hs] at hbody
      exact congrArg Except.ok (Option.some.inj hbody)

theorem unmarked_values (v : Variables) (name : String) :
    UnmarkedAny (Members.get? (v.members.map fun m => (m.1, Value.ofVariable m.1 m.2)) name) := by
  refine UnmarkedMembers.get? (List.forall_mem_map.mpr fun m _ => ?_) name
  exact ofVariable_unmarked m.1 m.2

/-- **What a plain template renders to is harmless** where values are escaped, whatever the variables
hold. -/
theorem render_harmless (hp : p.escapes = true) (h : p.Plain template) {out : String}
    (hout : p.render template v = .ok out) : Text.Html.Harmless out.toList := by
  obtain ⟨body, hbody, hplain⟩ := h
  have hmode : p.mode = .html := by rw [mode, hp, if_pos rfl]
  unfold render at hout
  dsimp only at hout
  rw [hbody, hmode] at hout
  dsimp only at hout
  split at hout
  · contradiction
  · rename_i text hfill
    cases hout
    rw [String.toList_ofList]
    exact fill_harmless (unmarked_values v) hplain (ofTokens_clear hbody) hfill

/-- A template with a loop that picks its items and a filter. -/
def roster : String :=
  "Team: " ++ tag "for name in names if name" ++ printed "loop.index" ++ " "
    ++ printed "name | upper" ++ tag "else" ++ "nobody" ++ tag "endfor"

/-- Variables for it whose texts would open a tag, end an attribute and start an entity. -/
def intruders : Variables :=
  ⟨[("names", .array [.string "<b>", .null, .string "\"Bo\" & 'Al'"])], List.cons_ne_nil _ _⟩

theorem roster_plain : standard.Plain roster := plain_of_arePlain (n := 2) (by decide +kernel)

theorem render_harmless_roster :
    standard.render roster intruders
        = .ok "Team: 1 &lt;B&gt;2 &quot;BO&quot; &amp; &#39;AL&#39;"
      ∧ Text.Html.Harmless "Team: 1 &lt;B&gt;2 &quot;BO&quot; &amp; &#39;AL&#39;".toList := by
  have hrender : standard.render roster intruders
      = .ok "Team: 1 &lt;B&gt;2 &quot;BO&quot; &amp; &#39;AL&#39;" := by decide +kernel
  exact ⟨hrender, render_harmless rfl roster_plain hrender⟩

end Policy

end Stencil
