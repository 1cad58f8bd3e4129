import Stencil.Rendering
import Stencil.Proofs.Members
import Stencil.Proofs.Template.Locality
import Stencil.Proofs.Template.Parser.Stmt

/-!
# What a rendering depends on

A rendering asks for a variable only by a name that the template spells. Two renderings of a template
are the same, the fault included, once the variables agree on its words; whatever else they hold, and in
which order, makes no difference.

The words are those of the tokens, and so they come before any parsing: a template that cannot be parsed
has words as well. Keywords count, since a keyword names a variable where an operand stands.

Main statement: `render_congr`.
-/

namespace Stencil

open Template

def Template.Token.word? : Token → Option String
  | .name s => some s
  | _ => none

namespace Policy

/-- The words that stand between the marks of a template. -/
def words (p : Policy) (template : String) : List String :=
  (Tokens.ofText p.keepsNewline template.toList).tokens.filterMap fun t => t.token.word?

variable {p : Policy} {template : String} {v w : Variables}

theorem spells_words :
    ∀ t ∈ (Tokens.ofText p.keepsNewline template.toList).tokens,
      t.Spells (· ∈ p.words template) :=
  fun t ht _ hs => List.mem_filterMap.mpr ⟨t, ht, by rw [hs]; rfl⟩

/-- Every name that is sought in a template is one of its words. -/
theorem statements_within {body : List Stmt} (h : p.statements template = .ok body) :
    WithinStmts (· ∈ p.words template) body := ofTokens_within spells_words h

/-- **Variables that agree on the words of a template** make the same of it, be that a text or a
fault. -/
theorem render_congr (h : ∀ id ∈ p.words template, v.get? id = w.get? id) :
    p.render template v = p.render template w := by
  have hvalues : ∀ id ∈ p.words template,
      Members.get? (v.members.map fun m => (m.1, Value.ofVariable m.1 m.2)) id
        = Members.get? (w.members.map fun m => (m.1, Value.ofVariable m.1 m.2)) id := by
    intro id hid
    have hid' : Members.get? v.members id = Members.get? w.members id := h id hid
    rw [Members.get?_map, Members.get?_map, hid']
  unfold render
  dsimp only
  split
  · rfl
  · rename_i body hbody
    rw [fill_congr hvalues (statements_within hbody) p.mode]

/-- A block in writing, between its marks. -/
def tag (content : String) : String := "\x7b% " ++ content ++ " %\x7d"

/-- A printed expression in writing, between its marks. -/
def printed (content : String) : String := "\x7b\x7b " ++ content ++ " \x7d\x7d"

/-- A template with a macro, which keeps one variable and hides another. -/
def greetings : String :=
  tag "macro hail(who)" ++ "Hi " ++ printed "who ~ mark" ++ tag "endmacro"
    ++ tag "for name in names" ++ printed "hail(name)" ++ tag "endfor"

/-- Variables for it, after others that it does not name. -/
def crowded : Variables :=
  ⟨[("title", .string "unused"), ("mark", .string "!"), ("who", .null),
    ("names", .array [.string "Ada", .string "Bo"])], List.cons_ne_nil _ _⟩

/-- The same for the names in the template, in another order. -/
def sparse : Variables :=
  ⟨[("names", .array [.string "Ada", .string "Bo"]), ("who", .null), ("mark", .string "!")],
    List.cons_ne_nil _ _⟩

theorem render_congr_greetings :
    (∀ id ∈ standard.words greetings, crowded.get? id = sparse.get? id)
      ∧ standard.render greetings crowded = standard.render greetings sparse
      ∧ standard.render greetings sparse = .ok "Hi Ada!Hi Bo!" := by
  have hwords : standard.words greetings
      = ["macro", "hail", "who", "who", "mark", "endmacro", "for", "name", "in", "names", "hail",
        "name", "endfor"] := by decide +kernel
  have hagree : ∀ id ∈ standard.words greetings, crowded.get? id = sparse.get? id := by
    rw [hwords]
    simp [crowded, sparse, Variables.get?, Members.get?]
  exact ⟨hagree, render_congr hagree, by decide +kernel⟩

end Policy

end Stencil
