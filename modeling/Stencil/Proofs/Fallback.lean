import Stencil.Proofs.Template.Marker

/-!
# The filter that falls back

The filter keeps a value or puts a fallback in its place. What there is no value for is decided by the walk that the
names in front of the filter make: it leads to nothing, at whatever step it breaks off, or to null. With the flag a
value that counts as false gives way as well. A fallback that is left out is the empty text.

Nothing makes such a marker fail, and what it prints is what a marker with the fallback alone prints, or the marker
without the filter.

Main statement: `render_fallback`.
-/

namespace Stencil

namespace Template

/-- Whether a walk led to no value. -/
def isMissing : Option Json → Bool
  | none | some .null => true
  | some _ => false

/-- Whether what a walk led to counts as false. -/
def countsAsFalse : Option Json → Bool
  | none | some .null => true
  | some (.bool b) => !b
  | some (.number (.int n)) => n == 0
  | some (.number (.float x)) => x == 0
  | some (.string s) => s.isEmpty
  | some (.array items) => items.isEmpty
  | some (.object members) => members.isEmpty

variable {w : Option Json} {x : Value} {mode : EscapeMode}

/-- Where there is no value it counts as false. -/
theorem isMissing_or_countsAsFalse (w : Option Json) : (isMissing w || countsAsFalse w) = countsAsFalse w := by
  match w with
  | none | some .null => rfl
  | some (.bool _) | some (.number _) | some (.string _) | some (.array _) | some (.object _) => rfl

/-! ## What has no value, and what counts as false -/

theorem length_rootedItems (root : Root) (path : List Nat) (n : Nat) (vs : List Value) :
    (rootedItems root path n vs).length = vs.length := by
  induction vs generalizing n with
  | nil => rfl
  | cons v vs ih => exact congrArg Nat.succ (ih (n + 1))

theorem length_rootedEntries (root : Root) (path : List Nat) (n : Nat) (es : List (Value × Value)) :
    (rootedEntries root path n es).length = es.length := by
  induction es generalizing n with
  | nil => rfl
  | cons e es ih => exact congrArg Nat.succ (ih (n + 2))

theorem isUnset_of_stands (h : Stands w x) : x.isUnset = isMissing w := by
  match w with
  | none =>
      obtain rfl : x = .undefined := h
      rfl
  | some w =>
      obtain ⟨root, path, rfl⟩ := h
      cases w with
      | number n => cases n <;> rfl
      | null | bool _ | string _ | array _ | object _ => rfl

/-- **A value counts as true unless what it stands for counts as false.** Of a container its length decides, which
does not depend on where it is from. -/
theorem isTrue_of_stands (h : Stands w x) : x.isTrue = !countsAsFalse w := by
  have hlength (n : Nat) (b : Bool) (hb : b = true ↔ n = 0) : (some n != some 0) = !b := by
    cases b <;> simp_all
  match w with
  | none =>
      obtain rfl : x = .undefined := h
      rfl
  | some w =>
      obtain ⟨root, path, rfl⟩ := h
      cases w with
      | null => rfl
      | bool b => exact (Bool.not_not b).symm
      | number n => cases n <;> rfl
      | string s => rfl
      | array items =>
          refine hlength (rootedItems root path 0 (ofJsonItems items)).length items.isEmpty ?_
          simp [length_rootedItems]
      | object members =>
          refine hlength (rootedEntries root path 0 (ofJsonMembers members)).length members.isEmpty ?_
          simp [length_rootedEntries]

/-! ## The filter -/

/-- The names of the filter. -/
def fallbackNames : List String := ["default", "d"]

theorem isWord_of_mem_fallbackNames {name : String} (h : name ∈ fallbackNames) : isWord name = true := by
  simp only [fallbackNames, List.mem_cons, List.not_mem_nil, or_false] at h
  rcases h with rfl | rfl <;> decide +kernel

/-- The filter in writing without a fallback, be it with brackets or without. -/
def Pipe.bare (name : String) (h : name ∈ fallbackNames) (brackets : Bool) : Pipe where
  name := name
  isWord := isWord_of_mem_fallbackNames h
  args := if brackets then some [] else none
  few := by cases brackets <;> simp

/-- The filter in writing, with a fallback, and with the flag where values that count as false give way. -/
def Pipe.fallback (name : String) (h : name ∈ fallbackNames) (F : String) (hF : isQuotable F = true)
    (evenFalse : Bool) : Pipe where
  name := name
  isWord := isWord_of_mem_fallbackNames h
  args := some (.text F hF :: if evenFalse then [.yes] else [])
  few := by cases evenFalse <;> simp

/-- Both names are of one filter, which takes its arguments and falls back. -/
theorem apply_default {name : String} (h : name ∈ fallbackNames) (args : List Value) :
    Filter.apply mode name args = some (Take.run Filter.default args) := by
  simp only [fallbackNames, List.mem_cons, List.not_mem_nil, or_false] at h
  rcases h with rfl | rfl <;> rfl

theorem passed_bare {name : String} (h : name ∈ fallbackNames) (brackets : Bool) (x : Value) :
    passed mode [.bare name h brackets] x = .ok (Filter.withFallback x none false) := by
  have happly : Filter.apply mode name [x] = some (.ok (Filter.withFallback x none false)) := apply_default h [x]
  rw [passed_singleton, Pipe.apply]
  cases brackets <;> exact congrArg (Option.getD · _) happly

theorem passed_fallback {name : String} (h : name ∈ fallbackNames) {F : String} (hF : isQuotable F = true)
    (evenFalse : Bool) (x : Value) :
    passed mode [.fallback name h F hF evenFalse] x = .ok (Filter.withFallback x (some (.text F)) evenFalse) := by
  rw [passed_singleton, Pipe.apply]
  cases evenFalse with
  | false =>
      have happly : Filter.apply mode name [x, .text F]
          = some (.ok (Filter.withFallback x (some (.text F)) false)) := apply_default h _
      exact congrArg (Option.getD · _) happly
  | true =>
      have happly : Filter.apply mode name [x, .text F, .bool true]
          = some (.ok (Filter.withFallback x (some (.text F)) true)) := apply_default h _
      exact congrArg (Option.getD · _) happly

/-- What the filter keeps or puts in place is printed as a marker of it alone would print it. -/
theorem printed_withFallback (escapes : Bool) (h : Stands w x) (F : Option String) (evenFalse : Bool) :
    printed (modeOf escapes) (Filter.withFallback x (F.map .text) evenFalse)
      = .ok (if isMissing w || (evenFalse && countsAsFalse w) then escapedIf escapes (F.getD "").toList
          else shown escapes w) := by
  rw [Filter.withFallback, isUnset_of_stands h, isTrue_of_stands h, Bool.not_not]
  split
  · cases F <;> cases escapes <;> rfl
  · exact printed_of_stands h

/-- A text between quotes, alone. -/
def quoted (F : String) (hF : isQuotable F = true) : Piped := ⟨.given (.text F hF), []⟩

end Template

open Template

namespace Policy

variable {p : Policy} {v : Variables}

theorem render_quoted {F : String} (hF : isQuotable F = true) :
    p.render (quoted F hF).text v = .ok (String.ofList (escapedIf p.escapes F.toList)) := by
  refine render_marker _ fun x hx => ⟨x, rfl, ?_⟩
  obtain rfl : x = .text F := hx
  cases p.escapes <;> rfl

/-- A marker whose filter falls back is rendered without fail. -/
theorem render_withFallback (p : Policy) (r : Reference) (v : Variables) (pipe : Pipe) (F : Option String)
    (evenFalse : Bool)
    (h : ∀ x, passed (modeOf p.escapes) [pipe] x = .ok (Filter.withFallback x (F.map .text) evenFalse)) :
    let found := v.walk? r.root r.names
    p.render (r.through [pipe]).text v
      = .ok (String.ofList (if isMissing found || (evenFalse && countsAsFalse found)
          then escapedIf p.escapes (F.getD "").toList else shown p.escapes found)) :=
  render_marker _ fun x hx => ⟨_, h x, printed_withFallback p.escapes hx F evenFalse⟩

/-- **The filter falls back where there is no value.** With the flag it does so as well where the value counts as
false, and without a fallback the marker stays empty then. In all other cases it prints what it prints without the
filter, and it never fails. -/
theorem render_fallback (p : Policy) (r : Reference) (v : Variables) {name F : String}
    (h : name ∈ fallbackNames) (hF : isQuotable F = true) :
    let found := v.walk? r.root r.names
    p.render (r.through [.fallback name h F hF false]).text v
        = (if isMissing found then p.render (quoted F hF).text v else p.render (r.through []).text v)
      ∧ p.render (r.through [.fallback name h F hF true]).text v
        = (if countsAsFalse found then p.render (quoted F hF).text v else p.render (r.through []).text v)
      ∧ (∀ brackets, p.render (r.through [.bare name h brackets]).text v
        = (if isMissing found then .ok "" else p.render (r.through []).text v))
      ∧ p.render (quoted F hF).text v = .ok (String.ofList (escapedIf p.escapes F.toList))
      ∧ p.render (r.through []).text v = .ok (String.ofList (shown p.escapes found)) := by
  intro found
  have hfallback (evenFalse : Bool) :=
    render_withFallback p r v _ (some F) evenFalse (passed_fallback h hF evenFalse)
  refine ⟨?_, ?_, fun brackets => ?_, render_quoted hF, render_reference r⟩
  · rw [hfallback, render_quoted hF, render_reference, Bool.false_and, Bool.or_false]
    split <;> rfl
  · rw [hfallback, render_quoted hF, render_reference, Bool.true_and, isMissing_or_countsAsFalse]
    split <;> rfl
  · have hbare := render_withFallback p r v _ none false (passed_bare h brackets)
    rw [hbare, render_reference, Bool.false_and, Bool.or_false]
    cases p.escapes <;> cases isMissing found <;> rfl

/-- A member of a variable. -/
def nickname : Reference := ⟨"guest", by decide +kernel, [.dotted "nick" (by decide +kernel)]⟩

/-- Variables where it is an empty text. -/
def guest : Variables := ⟨[("guest", .object [("nick", .string "")])], List.cons_ne_nil _ _⟩

theorem render_fallback_nickname :
    "d" ∈ fallbackNames ∧ isQuotable "no <name>" = true
      ∧ standard.render "\x7b\x7b guest.nick | d(\"no <name>\") \x7d\x7d" guest = .ok ""
      ∧ standard.render "\x7b\x7b guest.nick | d(\"no <name>\", true) \x7d\x7d" guest
        = .ok "no &lt;name&gt;" := by
  obtain ⟨hmissing, hfalse, -, hquoted, hkept⟩ := render_fallback standard nickname guest
    (show "d" ∈ fallbackNames by decide) (show isQuotable "no <name>" = true by decide +kernel)
  have htext : "\x7b\x7b guest.nick | d(\"no <name>\") \x7d\x7d"
      = (nickname.through [.fallback "d" (by decide) "no <name>" (by decide +kernel) false]).text := by
    decide +kernel
  have hflag : "\x7b\x7b guest.nick | d(\"no <name>\", true) \x7d\x7d"
      = (nickname.through [.fallback "d" (by decide) "no <name>" (by decide +kernel) true]).text := by
    decide +kernel
  refine ⟨by decide, by decide +kernel, ?_, ?_⟩
  · rw [htext, hmissing, if_neg (by decide +kernel), hkept]
    decide +kernel
  · rw [hflag, hfalse, if_pos (by decide +kernel), hquoted]
    decide +kernel

end Policy

end Stencil
