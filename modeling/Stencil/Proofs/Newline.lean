import Stencil.Proofs.Template.Marker

/-!
# The filter that ends a line

The filter writes a value in the engine's own text and puts a line end behind it. That is what a marker prints of
most values, but not of all: a marker prints nothing of null and writes truth values in lower case, while the filter
writes their names. And the text that the filter makes bears no mark, so that a text which was said to be safe is
escaped again.

Main statement: `render_newline_iff` tells exactly when the filter does nothing but append a line end.
-/

namespace Stencil

namespace Template

open Text.Html (escape Free)

/-- The filter that ends a line. -/
def Pipe.newline : Pipe := .plain "nl" (by decide +kernel)

/-- The filter that marks a text as safe. -/
def Pipe.safe : Pipe := .plain "safe" (by decide +kernel)

variable {escapes : Bool} {w : Option Json} {x : Value} {mode : EscapeMode} {cs : List Char}

/-! ## Texts that escaping changes -/

theorem length_le_length_escape (cs : List Char) : cs.length ≤ (escape cs).length := by
  induction cs with
  | nil => exact Nat.le_refl _
  | cons c cs ih =>
      have hpos : 0 < (Text.Html.escapeChar c).length := by
        unfold Text.Html.escapeChar Text.Html.entity?
        repeat' split
        all_goals exact Nat.succ_pos _
      rw [Text.Html.escape_cons, List.length_append, List.length_cons]
      omega

/-- **Only a text without the five characters is what it is escaped to**: an entity is longer than what it stands
for. -/
theorem escape_eq_self_iff : escape cs = cs ↔ Free cs := by
  refine ⟨fun h => ?_, escape_of_free⟩
  induction cs with
  | nil => exact List.forall_mem_nil _
  | cons c cs ih =>
      rw [Text.Html.escape_cons] at h
      by_cases hc : c ≠ '&' ∧ c ≠ '<' ∧ c ≠ '>' ∧ c ≠ '"' ∧ c ≠ '\''
      · have hchar : Text.Html.escapeChar c = [c] := by
          simp [Text.Html.escapeChar, Text.Html.entity?, hc]
        rw [hchar] at h
        exact List.forall_mem_cons.mpr ⟨hc, ih (List.cons.inj h).2⟩
      · have hlong : 1 < (Text.Html.escapeChar c).length := by
          unfold Text.Html.escapeChar Text.Html.entity?
          repeat' split
          all_goals first | exact Nat.succ_lt_succ (Nat.succ_pos _) | exact absurd (by tauto) hc
        have hlen := congrArg List.length h
        have hle := length_le_length_escape cs
        rw [List.length_append, List.length_cons] at hlen
        omega

theorem escapedIf_eq_self_iff : escapedIf escapes cs = cs ↔ escapes = false ∨ Free cs := by
  cases escapes with
  | false => simp [escapedIf]
  | true => simp [escapedIf, escape_eq_self_iff]

theorem escapedIf_append_newline : escapedIf escapes (cs ++ ['\n']) = escapedIf escapes cs ++ ['\n'] := by
  cases escapes with
  | false => rfl
  | true => exact Text.Html.escape_append cs ['\n']

/-! ## What the engine's own text is printed as -/

/-- **A marker prints the engine's own text of all but null and truth values.** -/
theorem shown_eq_iff :
    shown escapes w = escapedIf escapes (shownSafe w) ↔ w ≠ some .null ∧ ∀ b, w ≠ some (.bool b) := by
  have hsame (h : shown escapes w = escapedIf escapes (shownSafe w)) (hnull : w ≠ some .null)
      (hbool : ∀ b, w ≠ some (.bool b)) :
      shown escapes w = escapedIf escapes (shownSafe w) ↔ w ≠ some .null ∧ ∀ b, w ≠ some (.bool b) :=
    ⟨fun _ => ⟨hnull, hbool⟩, fun _ => h⟩
  match w with
  | none => exact hsame (by cases escapes <;> rfl) nofun nofun
  | some .null =>
      have hne : shown escapes (some .null) ≠ escapedIf escapes (shownSafe (some .null)) := by
        cases escapes <;> decide
      exact ⟨fun h => absurd h hne, fun h => absurd rfl h.1⟩
  | some (.bool b) =>
      have hne : shown escapes (some (.bool b)) ≠ escapedIf escapes (shownSafe (some (.bool b))) := by
        cases escapes <;> cases b <;> decide
      exact ⟨fun h => absurd h hne, fun h => absurd rfl (h.2 b)⟩
  | some (.number (.int n)) =>
      have hdigits : (toString n).toList = escapedIf escapes (Decimal.ofInt n) := by
        rw [← ofInt_eq_toString, escapedIf_eq_self_iff.mpr (.inr (free_ofInt n))]
      exact hsame hdigits nofun nofun
  | some (.number (.float _)) | some (.string _) | some (.array _) | some (.object _) =>
      exact hsame rfl nofun nofun

/-! ## The filters -/

/-- The filter keeps no mark. -/
theorem passed_newline (mode : EscapeMode) (x : Value) :
    passed mode [.newline] x = .ok (.chars (x.plainText ++ ['\n'])) := rfl

theorem passed_safe (mode : EscapeMode) (h : x.anyText? = some x.plain) :
    passed mode [.safe] x = .ok (.string x.plain true) := by
  have happly : Filter.apply mode Pipe.safe.name (x :: Pipe.safe.given.map Given.value)
      = some (.ok (.string x.plain true)) := apply_safe mode h
  rw [passed_singleton, Pipe.apply, happly, Option.getD_some]

theorem passed_safe_newline (mode : EscapeMode) (h : x.anyText? = some x.plain) :
    passed mode [.safe, .newline] x = .ok (.chars (x.plainText ++ ['\n'])) := by
  have hplain : (Value.string x.plain true).plainText = x.plainText := String.toList_ofList
  rw [show [Pipe.safe, .newline] = [Pipe.safe] ++ [.newline] from rfl, passed_append, passed_safe mode h,
    ← hplain]
  rfl

theorem printed_chars (cs : List Char) : printed (modeOf escapes) (.chars cs) = .ok (escapedIf escapes cs) := by
  have hplain : (Value.chars cs).plainText = cs := String.toList_ofList
  cases escapes with
  | false => exact congrArg Except.ok hplain
  | true => exact congrArg (fun cs => Except.ok (escape cs)) hplain

end Template

open Template
open Text.Html (Free)

namespace Policy

variable {p : Policy} {v : Variables}

theorem render_safe (r : Reference) :
    p.render (r.through [.safe]).text v = .ok (String.ofList (shownSafe (v.walk? r.root r.names))) := by
  refine render_marker _ fun x hx => ⟨_, passed_safe _ (anyText?_of_stands hx), ?_⟩
  have hplain : x.plain.toList = shownSafe (v.walk? r.root r.names) := by
    rw [Value.plain, String.toList_ofList, plainText_of_stands hx]
  rw [← hplain]
  rfl

/-- What the filter makes of a text, marked or not, is escaped before the line end. -/
theorem render_ended (r : Reference) {pipes : List Pipe}
    (h : ∀ x, x.anyText? = some x.plain →
      passed (modeOf p.escapes) pipes x = .ok (.chars (x.plainText ++ ['\n']))) :
    p.render (r.through pipes).text v
      = .ok (String.ofList (escapedIf p.escapes (shownSafe (v.walk? r.root r.names))) ++ "\n") := by
  have hmarker : p.render (r.through pipes).text v
      = .ok (String.ofList (escapedIf p.escapes (shownSafe (v.walk? r.root r.names) ++ ['\n']))) := by
    refine render_marker _ fun x hx => ⟨_, h x (anyText?_of_stands hx), ?_⟩
    rw [plainText_of_stands hx, printed_chars]
  rw [hmarker, escapedIf_append_newline, String.ofList_append]

theorem ok_append_newline_inj {a b : List Char} :
    (Except.ok (String.ofList a ++ "\n") : Except Fault String) = (Except.ok (String.ofList b)).map (· ++ "\n")
      ↔ a = b := by
  simp [Except.map, String.ofList_inj]

/-- **The filter appends a line end to the engine's own text, and escapes it where values are.** That is what the
marker prints without the filter unless there is null or a truth value; and what it prints of a text that is said to
be safe only where values are not escaped, or where escaping changes nothing. -/
theorem render_newline_iff (p : Policy) (r : Reference) (v : Variables) :
    let found := v.walk? r.root r.names
    let ended := String.ofList (escapedIf p.escapes (shownSafe found)) ++ "\n"
    p.render (r.through [.newline]).text v = .ok ended
      ∧ p.render (r.through [.safe, .newline]).text v = .ok ended
      ∧ (p.render (r.through [.newline]).text v = (p.render (r.through []).text v).map (· ++ "\n")
          ↔ found ≠ some .null ∧ ∀ b, found ≠ some (.bool b))
      ∧ (p.render (r.through [.safe, .newline]).text v
            = (p.render (r.through [.safe]).text v).map (· ++ "\n")
          ↔ p.escapes = false ∨ Free (shownSafe found)) := by
  intro found ended
  have hplain : p.render (r.through [.newline]).text v = .ok ended :=
    render_ended r fun x _ => passed_newline _ x
  have hsafe : p.render (r.through [.safe, .newline]).text v = .ok ended :=
    render_ended r fun _ hx => passed_safe_newline _ hx
  refine ⟨hplain, hsafe, ?_, ?_⟩
  · rw [hplain, render_reference, ok_append_newline_inj, eq_comm, shown_eq_iff]
  · rw [hsafe, render_safe, ok_append_newline_inj, escapedIf_eq_self_iff]

def entry : Reference := ⟨"a", by decide +kernel, []⟩

example : (entry.through [.safe, .newline]).text = "\x7b\x7b a | safe | nl \x7d\x7d" := by decide +kernel

/-- Null is written out before the line end, and a text that is said to be safe is escaped. -/
theorem not_forall_render_newline_eq :
    (¬ ∀ (p : Policy) (v : Variables) (r : Reference),
        p.render (r.through [.newline]).text v = (p.render (r.through []).text v).map (· ++ "\n"))
      ∧ ¬ ∀ (p : Policy) (v : Variables) (r : Reference),
        p.render (r.through [.safe, .newline]).text v
          = (p.render (r.through [.safe]).text v).map (· ++ "\n") := by
  constructor
  · intro h
    exact absurd (h standard ⟨[("a", .null)], List.cons_ne_nil _ _⟩ entry) (by decide +kernel)
  · intro h
    exact absurd (h standard ⟨[("a", .string "<")], List.cons_ne_nil _ _⟩ entry) (by decide +kernel)

end Policy

end Stencil
