import Stencil.Proofs.Rendering
import Stencil.Proofs.Template.Parser.Body
import Stencil.Proofs.Template.Printing

/-!
# Filling a form

A form is a text with fields, and filling it puts into each field what the variables hold there. Its texts stay
as they are, to the last line end. A field whose names lead nowhere stays empty, as does one that leads to null; a
truth value is a word, an integer its digits, and a text itself, escaped where values are escaped unless the field
is said to be safe. Nothing that the variables hold makes it fail.

The argument goes through the stages of a rendering. A form is cut into the tokens of its parts (`cuts_form`),
these are read as one statement each (`exists_ofTokens_form`), and what a statement prints is told from the walk
that its names make (`evalExpr_refers`).

Main statement: `render_form`.
-/

namespace Stencil

namespace Template

def Field.shown (f : Field) (escapes : Bool) (v : Variables) : List Char :=
  let found := v.walk? f.reference.root f.reference.names
  if f.isSafe then shownSafe found else Template.shown escapes found

def Form.filled (f : Form) (escapes : Bool) (v : Variables) : String :=
  String.ofList (f.lead.chars ++ f.rest.flatMap fun p => p.1.shown escapes v ++ p.2.chars)

variable {escapes : Bool} {st : Store} {s : Surroundings} {e : Expr} {v : Variables}

/-- What a part of a form is filled with. -/
def Fragment.filled (escapes : Bool) (v : Variables) : Fragment → List Char
  | .text cs => cs
  | .field f => f.shown escapes v

/-- A form is filled when its parts are. -/
theorem Form.filled_eq (f : Form) (escapes : Bool) (v : Variables) :
    f.filled escapes v = String.ofList (f.fragments.flatMap (Fragment.filled escapes v)) := by
  have htext (cs : List Char) : (textFragments cs).flatMap (Fragment.filled escapes v) = cs := by
    unfold textFragments
    split
    · rename_i h
      rw [h]
      rfl
    · simp [Fragment.filled]
  simp [filled, fragments, htext, Fragment.filled, List.flatMap_assoc, List.flatMap_cons]

/-- The expression of a field is no call. -/
theorem ne_call {names filters : List String} {root : String} (h : e.Pipes (Expr.Refers root names) filters) :
    ∀ f args start, e ≠ .call f args start := by
  rintro f args start rfl
  cases h with
  | nil h => cases h

/-- Whether variables are at hand under their names, in a mode of escaping, and there is no namespace. -/
structure Serves (escapes : Bool) (v : Variables) (s : Surroundings) (st : Store) : Prop where
  mode : s.mode = modeOf escapes
  spaces : st.spaces = []
  stands : ∀ root, Function.ofName? root = none →
    Stands (v.get? root) ((st.lookup? s.vars root).getD .undefined)

/-- **What a part prints** where its variable is at hand. -/
theorem evalStmt_fragment {p : Fragment} {stmt : Stmt} (h : p.Reads stmt) (hmode : s.mode = modeOf escapes)
    (hspaces : st.spaces = []) (hroot : ∀ f, p = .field f →
      Stands (v.get? f.reference.root) ((st.lookup? s.vars f.reference.root).getD .undefined)) :
    evalStmt s stmt st = .ok (p.filled escapes v, st) := by
  cases h with
  | text cs line => rfl
  | field f h line =>
      rename_i e
      have hroot := hroot f rfl
      have hcall := ne_call h
      rw [evalStmt, Fragment.filled, Field.shown]
      cases hsafe : f.isSafe with
      | false =>
          rw [Field.filters, hsafe] at h
          obtain ⟨x, hx, hstands⟩ := evalExpr_refers (Expr.of_pipes_nil h) hroot
          refine evalPrint_of_evalExpr hcall hx ?_
          rw [hstands.view_eq hspaces, hmode]
          exact printed_of_stands hstands
      | true =>
          rw [Field.filters, hsafe] at h
          obtain ⟨subject, start, hsubject, rfl⟩ := Expr.of_pipes_concat [] h
          obtain ⟨x, hx, hstands⟩ := evalExpr_refers (Expr.of_pipes_nil hsubject) hroot
          -- The filter makes a marked string of the value, so that it is printed as it is in both modes.
          have happly : Filter.apply s.mode "safe" [st.view x] = some (.ok (.string x.plain true)) := by
            rw [hstands.view_eq hspaces]
            exact apply_safe s.mode (anyText?_of_stands hstands)
          refine evalPrint_of_evalExpr hcall (evalExpr_filter hx happly) ?_
          have hplain : x.plain.toList = shownSafe (v.walk? f.reference.root f.reference.names) := by
            rw [Value.plain, String.toList_ofList, plainText_of_stands hstands]
            rfl
          rw [view_string, printed, hplain]
          rfl

/-- What parts print, one after the other, where the variables of their fields are at hand. -/
theorem evalStmts_fragments_of {fragments : List Fragment} {body : List Stmt}
    (h : List.Forall₂ Fragment.Reads fragments body) (hmode : s.mode = modeOf escapes) (hspaces : st.spaces = [])
    (hroots : ∀ f, .field f ∈ fragments →
      Stands (v.get? f.reference.root) ((st.lookup? s.vars f.reference.root).getD .undefined)) :
    evalStmts s body st = .ok (fragments.flatMap (Fragment.filled escapes v), st) := by
  induction h with
  | nil => rfl
  | cons hp _ ih =>
      have hfirst := evalStmt_fragment hp hmode hspaces fun f hf => hroots f (hf ▸ List.mem_cons_self)
      have hrest := ih fun f hf => hroots f (List.mem_cons_of_mem _ hf)
      rw [evalStmts, bind_of_ok hfirst, bind_of_ok hrest]
      rfl

/-- **What the parts of a form print**, one after the other. -/
theorem evalStmts_fragments {fragments : List Fragment} {body : List Stmt}
    (h : List.Forall₂ Fragment.Reads fragments body) (hs : Serves escapes v s st) :
    evalStmts s body st = .ok (fragments.flatMap (Fragment.filled escapes v), st) :=
  evalStmts_fragments_of h hs.mode hs.spaces fun f _ => hs.stands _ (of_isVariable f.reference.isVariable).2.2

/-- At the start a name that is no function is one of the variables. -/
theorem lookup?_start (vars : String → Option Value) {name : String} (h : Function.ofName? name = none) :
    Store.start.lookup? vars name = vars name := by
  have hframe : Store.inFrame? vars [] name { Frame.empty with ground := .vars } = vars name := by
    unfold Store.inFrame?
    split
    · contradiction
    · split
      · contradiction
      · rfl
  have hfound : Store.start.frames.findSome? (Store.inFrame? vars Store.start.closures name) = vars name := by
    rw [← hframe]
    exact List.findSome?_singleton
  rw [Store.lookup?, hfound, h]
  cases vars name <;> rfl

def valuesOf (v : Variables) : String → Option Value :=
  Members.get? (v.members.map fun m => (m.1, Value.ofVariable m.1 m.2))

/-- Variables are at hand where a rendering starts. -/
theorem serves_start (escapes : Bool) (v : Variables) (calls : Calls) (captured : Value) :
    Serves escapes v ⟨⟨modeOf escapes, modeOf escapes, false⟩, valuesOf v, calls, captured⟩ Store.start where
  mode := rfl
  spaces := rfl
  stands root h := by
    have hvalue : valuesOf v root = (v.get? root).map (Value.ofVariable root) := Members.get?_map _ _ _
    rw [lookup?_start _ h]
    dsimp only
    rw [hvalue]
    cases v.get? root with
    | none => rfl
    | some w => exact ⟨.given root, [], rfl⟩

end Template

open Template

namespace Policy

/-- **Filling a form.** A form is rendered without fail: its texts stay as they are, and each field is filled
with what the variables hold where its names lead. -/
theorem render_form (f : Form) (v : Variables) (escapes : Bool) :
    (Policy.mk escapes true).render f.text v = .ok (f.filled escapes v) := by
  obtain ⟨placed, hplaced, htokens⟩ := (cuts_form f).ofText
  obtain ⟨body, hbody, hreads⟩ := exists_ofTokens_form f htokens
  have hstatements : (Policy.mk escapes true).statements f.text = .ok body := by
    rw [statements, Form.text, String.toList_ofList, hplaced, hbody]
  have hfill : fill (valuesOf v) (Policy.mk escapes true).mode body
      = .ok (f.fragments.flatMap (Fragment.filled escapes v)) := by
    have hmode : (Policy.mk escapes true).mode = modeOf escapes := rfl
    simp only [fill, hmode, evalStmts_fragments hreads (serves_start escapes v _ _)]
  rw [valuesOf] at hfill
  rw [render, hstatements, Form.filled_eq]
  simp only [hfill]

/-- A form with a member of a member, a member that is not there, and a field that is said to be safe. -/
def notice : Form where
  lead := ⟨"<p>".toList, by decide⟩
  rest :=
    [(⟨⟨"user", by decide +kernel,
          [.quoted "full name" (by decide +kernel), .dotted "first" (by decide +kernel)]⟩, false⟩,
        ⟨" & ".toList, by decide⟩),
      (⟨⟨"user", by decide +kernel,
          [.dotted "age" (by decide +kernel), .dotted "unit" (by decide +kernel)]⟩, false⟩,
        ⟨[], by decide⟩),
      (⟨⟨"user", by decide +kernel, [.dotted "age" (by decide +kernel)]⟩, false⟩, ⟨"\n".toList, by decide⟩),
      (⟨⟨"_body", by decide +kernel, []⟩, true⟩, ⟨"\x7d\n\n".toList, by decide⟩)]

def visitor : Variables :=
  ⟨[("user", .object [("full name", .object [("first", .string "A'")]), ("age", .number (.int (-7)))]),
    ("_body", .string "<b>")], List.cons_ne_nil _ _⟩

theorem render_form_notice :
    standard.render ("<p>" ++ printed "user[\"full name\"].first" ++ " & " ++ printed "user.age.unit"
        ++ printed "user.age" ++ "\n" ++ printed "_body | safe" ++ "\x7d\n\n") visitor
      = .ok "<p>A&#39; & -7\n<b>\x7d\n\n" := by
  have htext : "<p>" ++ printed "user[\"full name\"].first" ++ " & " ++ printed "user.age.unit"
      ++ printed "user.age" ++ "\n" ++ printed "_body | safe" ++ "\x7d\n\n" = notice.text := by
    decide +kernel
  have hfilled : notice.filled true visitor = "<p>A&#39; & -7\n<b>\x7d\n\n" := by decide +kernel
  rw [htext, ← hfilled]
  exact render_form notice visitor true

end Policy

end Stencil
