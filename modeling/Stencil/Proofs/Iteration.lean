import Stencil.Proofs.Format.Listing
import Stencil.Proofs.Template.Looping

/-!
# What loops print

A loop prints its body once for each item of an array, and once for each member of an object behind the filter that
makes pairs of them, in the order in which these are there. Where there is no value it prints nothing. None of this
fails, and what is printed of a text is the text itself, escaped where values are.

Among variables that are read from a text the members of an object are in the order of the text, so that a loop over
them goes through the text from its front to its end.

Main statement: `render_loops`.
-/

namespace Stencil

namespace Template

def itemName : LoopName := ⟨"x", by decide +kernel, by decide⟩

def keyName : LoopName := ⟨"k", by decide +kernel, by decide⟩

def valueName : LoopName := ⟨"y", by decide +kernel, by decide⟩

/-- The field that prints what a name of a loop stands for. -/
def LoopName.field (x : LoopName) : Field := ⟨⟨x.name, x.isVariable, []⟩, false⟩

/-- A loop over items that prints each between two texts. -/
def itemLoop (r : Reference) (a b : Literal) : Loop where
  names := .one itemName
  subject := r.through []
  body := ⟨a, [(itemName.field, b)]⟩
  isPlain := by simp [LoopName.field, itemName]

/-- A loop over members that prints the name and the value of each between texts. -/
def memberLoop (r : Reference) (a b c : Literal) : Loop where
  names := .two keyName valueName (by decide)
  subject := r.through [.members]
  body := ⟨a, [(keyName.field, b), (valueName.field, c)]⟩
  isPlain := by simp [LoopName.field, keyName, valueName]

end Template

open Template

namespace Policy

variable {p : Policy} {v : Variables} {r : Reference} {ws : List Json} {ms : Members Json}

/-- The template `{% for x in P %}A{{ x }}B{% endfor %}`. -/
def overItems (r : Reference) (a b : Literal) : String :=
  "\x7b% for x in " ++ String.ofList r.chars ++ " %\x7d" ++ String.ofList a.chars ++ printed "x"
    ++ String.ofList b.chars ++ "\x7b% endfor %\x7d"

/-- The template `{% for k, y in P | items %}A{{ k }}B{{ y }}C{% endfor %}`. -/
def overMembers (r : Reference) (a b c : Literal) : String :=
  "\x7b% for k, y in " ++ String.ofList r.chars ++ " | items %\x7d" ++ String.ofList a.chars ++ printed "k"
    ++ String.ofList b.chars ++ printed "y" ++ String.ofList c.chars ++ "\x7b% endfor %\x7d"

theorem LoopName.chars_field (x : LoopName) : x.field.chars = (printed x.name).toList := by
  simp [LoopName.field, Field.chars, Field.filters, Reference.chars, pipeChars, printed]

theorem overItems_eq (r : Reference) (a b : Literal) : overItems r a b = (itemLoop r a b).text := by
  have hsubject : (r.through []).chars = r.chars := List.append_nil _
  have hbody : (itemLoop r a b).body.chars = a.chars ++ (itemName.field.chars ++ b.chars) := by
    simp [itemLoop, Form.chars]
  have hchars : (itemLoop r a b).chars = '\x7b' :: '%' :: ' ' :: ("for".toList ++ ' ' :: ("x".toList ++ ' ' ::
      ("in".toList ++ ' ' :: ((r.through []).chars ++ ' ' :: '%' :: '\x7d' ::
        ((itemLoop r a b).body.chars ++ endLoopChars))))) := rfl
  refine String.toList_injective ?_
  rw [Loop.text, String.toList_ofList, hchars, hsubject, hbody, LoopName.chars_field]
  unfold overItems
  simp [itemName, endLoopChars]

theorem overMembers_eq (r : Reference) (a b c : Literal) : overMembers r a b c = (memberLoop r a b c).text := by
  have hpipe : Pipe.members.chars = " | items".toList := by decide +kernel
  have hsubject : (r.through [.members]).chars = r.chars ++ " | items".toList := by
    simp [Reference.through, Piped.chars, Subject.chars, hpipe]
  have hbody : (memberLoop r a b c).body.chars
      = a.chars ++ (keyName.field.chars ++ (b.chars ++ (valueName.field.chars ++ c.chars))) := by
    simp [memberLoop, Form.chars]
  have hchars : (memberLoop r a b c).chars = '\x7b' :: '%' :: ' ' :: ("for".toList ++ ' ' ::
      (("k".toList ++ ',' :: ' ' :: "y".toList) ++ ' ' :: ("in".toList ++ ' ' :: ((r.through [.members]).chars
        ++ ' ' :: '%' :: '\x7d' :: ((memberLoop r a b c).body.chars ++ endLoopChars))))) := rfl
  refine String.toList_injective ?_
  rw [Loop.text, String.toList_ofList, hchars, hsubject, hbody, LoopName.chars_field, LoopName.chars_field]
  unfold overMembers
  simp [keyName, valueName, endLoopChars]

/-! ## What they print -/

theorem shown_name (x : LoopName) {bound : Members Json} {w : Json} (h : Members.get? bound x.name = some w)
    (escapes : Bool) : x.field.shown escapes (v.extend bound) = shown escapes (some w) := by
  have hget : (v.extend bound).get? x.name = some w := by
    show Members.get? (bound ++ v.members) x.name = some w
    rw [Members.get?_append, h, Option.some_or]
  simp [Field.shown, LoopName.field, Reference.names, Variables.walk?, hget]

/-- **Every item of an array is printed once**, in order. -/
theorem render_overItems (a b : Literal) (h : v.walk? r.root r.names = some (.array ws)) :
    p.render (overItems r a b) v
      = .ok (String.ofList (ws.flatMap fun w => a.chars ++ (shown p.escapes (some w) ++ b.chars))) := by
  have hturn (w : Json) : ((itemLoop r a b).body.filled p.escapes (v.extend [(itemName.name, w)])).toList
      = a.chars ++ (shown p.escapes (some w) ++ b.chars) := by
    simp [itemLoop, Form.filled, shown_name itemName (w := w), Members.get?]
  rw [overItems_eq, render_loop (itemLoop r a b) (ws.map fun w => [(itemName.name, w)]) fun x hx => ?_]
  · simp only [List.flatMap_map, hturn]
  · replace hx : Stands (v.walk? r.root r.names) x := hx
    obtain ⟨items, hgoes, htakes⟩ := goesThrough_array itemName (h ▸ hx)
    exact ⟨x, items, rfl, hgoes, htakes⟩

/-- **Every member of an object is printed once**, in order. -/
theorem render_overMembers (a b c : Literal) (h : v.walk? r.root r.names = some (.object ms)) :
    p.render (overMembers r a b c) v
      = .ok (String.ofList (ms.flatMap fun m => a.chars ++ (escapedIf p.escapes m.1.toList
          ++ (b.chars ++ (shown p.escapes (some m.2) ++ c.chars))))) := by
  have hturn (m : String × Json) : ((memberLoop r a b c).body.filled p.escapes
        (v.extend [(keyName.name, .string m.1), (valueName.name, m.2)])).toList
      = a.chars ++ (escapedIf p.escapes m.1.toList ++ (b.chars ++ (shown p.escapes (some m.2) ++ c.chars))) := by
    have hkey : keyName.field.shown p.escapes (v.extend [(keyName.name, .string m.1), (valueName.name, m.2)])
        = escapedIf p.escapes m.1.toList := shown_name (w := .string m.1) keyName rfl p.escapes
    have hvalue : valueName.field.shown p.escapes (v.extend [(keyName.name, .string m.1), (valueName.name, m.2)])
        = shown p.escapes (some m.2) := shown_name (w := m.2) valueName rfl p.escapes
    simp [memberLoop, Form.filled, hkey, hvalue]
  rw [overMembers_eq, render_loop (memberLoop r a b c)
    (ms.map fun m => [(keyName.name, .string m.1), (valueName.name, m.2)]) fun x hx => ?_]
  · simp only [List.flatMap_map, hturn]
  · replace hx : Stands (v.walk? r.root r.names) x := hx
    exact goesThrough_items keyName valueName (by decide) _ (h ▸ hx)

/-- Where there is no value nothing is printed. -/
theorem render_overItems_none (a b : Literal) (h : v.walk? r.root r.names = none) :
    p.render (overItems r a b) v = .ok "" := by
  rw [overItems_eq, render_loop (itemLoop r a b) [] fun x hx => ?_]
  · rfl
  · replace hx : Stands (v.walk? r.root r.names) x := hx
    exact ⟨x, [], rfl, goesThrough_none (h ▸ hx), .nil⟩

/-- **Loops go through all that is there, once and in order.** A loop over an array of texts prints each of them
between the texts of its body, and nothing where there is no value. A loop over the members of an object of texts
prints the name and the value of each, in the order of the members. Where the variables are resolved from a text,
that is the order in which the text lists the names; a name that it gives twice stays where it first came. -/
theorem render_loops (p : Policy) (v : Variables) (r : Reference) (a b c : Literal) :
    let found := v.walk? r.root r.names
    let shown (text : String) := escapedIf p.escapes text.toList
    (∀ texts : List String, found = some (.array (texts.map .string)) →
        p.render (overItems r a b) v
          = .ok (String.ofList (texts.flatMap fun x => a.chars ++ shown x ++ b.chars)))
      ∧ (found = none → p.render (overItems r a b) v = .ok "")
      ∧ ∀ ms : Members String, found = some (.object (ms.map fun m => (m.1, .string m.2))) →
        p.render (overMembers r a b c) v
            = .ok (String.ofList (ms.flatMap fun m => a.chars ++ shown m.1 ++ b.chars ++ shown m.2 ++ c.chars))
          ∧ ∀ (chain : Chain) (text : String) (resolved : Chain.Resolved), chain.resolve text = .ok resolved →
            resolved.vars = v → ∃ names, resolved.format.Lists text (r.root :: r.names) names
              ∧ Members.keys ms = names.eraseDups ∧ (names.Nodup → Members.keys ms = names) := by
  intro found shown
  refine ⟨fun texts h => ?_, render_overItems_none a b, fun ms h => ⟨?_, ?_⟩⟩
  · rw [render_overItems a b h, List.flatMap_map]
    simp only [List.append_assoc]
    rfl
  · rw [render_overMembers a b c h, List.flatMap_map]
    simp only [List.append_assoc]
    rfl
  · -- The listing is read off the text. A name that it repeats is a member once, where it stands first.
    rintro chain text resolved hresolved rfl
    obtain ⟨names, hlists, hkeys⟩ := exists_lists_of_resolve hresolved h
    have hsame : Members.keys (ms.map fun m => (m.1, Json.string m.2)) = Members.keys ms := by
      simp [Members.keys, Function.comp_def]
    rw [hsame] at hkeys
    exact ⟨names, hlists, hkeys, fun hnodup => hkeys.trans (eraseDups_of_nodup hnodup)⟩

/-- A text with an array and an object further in. -/
def kioskText : String :=
  "\x7b\"tags\": [\"b&\", \"a\"], \"shop\": \x7b\"menu\": \x7b\"tea\": \"<2>\", \"cake\": \"3\"\x7d\x7d\x7d"

def kiosk : Variables :=
  ⟨[("tags", .array [.string "b&", .string "a"]),
    ("shop", .object [("menu", .object [("tea", .string "<2>"), ("cake", .string "3")])])], List.cons_ne_nil _ _⟩

theorem render_loops_kiosk :
    standard.render "\x7b% for x in tags %\x7d<li>\x7b\x7b x \x7d\x7d</li>\x7b% endfor %\x7d" kiosk
        = .ok "<li>b&amp;</li><li>a</li>"
      ∧ standard.render "\x7b% for x in shop.soup %\x7d<li>\x7b\x7b x \x7d\x7d</li>\x7b% endfor %\x7d" kiosk
        = .ok ""
      ∧ standard.render
          "\x7b% for k, y in shop.menu | items %\x7d\x7b\x7b k \x7d\x7d: \x7b\x7b y \x7d\x7d; \x7b% endfor %\x7d"
          kiosk
        = .ok "tea: &lt;2&gt;; cake: 3; "
      ∧ Chain.standard.resolve kioskText = .ok ⟨kiosk, .json⟩
      ∧ ∃ names, Format.json.Lists kioskText ["shop", "menu"] names ∧ names.eraseDups = ["tea", "cake"] := by
  let tags : Reference := ⟨"tags", by decide +kernel, []⟩
  let soup : Reference := ⟨"shop", by decide +kernel, [.dotted "soup" (by decide +kernel)]⟩
  let menu : Reference := ⟨"shop", by decide +kernel, [.dotted "menu" (by decide +kernel)]⟩
  let opening : Literal := ⟨"<li>".toList, by decide⟩
  let closing : Literal := ⟨"</li>".toList, by decide⟩
  have hresolve : Chain.standard.resolve kioskText = .ok ⟨kiosk, .json⟩ := rfl
  have hitems := (render_loops standard kiosk tags opening closing ⟨[], by decide⟩).1 ["b&", "a"] rfl
  have hnone := (render_loops standard kiosk soup opening closing ⟨[], by decide⟩).2.1 rfl
  obtain ⟨hmembers, horder⟩ := (render_loops standard kiosk menu ⟨[], by decide⟩ ⟨": ".toList, by decide⟩
    ⟨"; ".toList, by decide⟩).2.2 [("tea", "<2>"), ("cake", "3")] rfl
  obtain ⟨names, hlists, hkeys, -⟩ := horder Chain.standard kioskText ⟨kiosk, .json⟩ hresolve rfl
  refine ⟨?_, ?_, ?_, hresolve, names, hlists, hkeys.symm⟩
  · exact (congrArg (standard.render · kiosk) (by decide +kernel)).trans (hitems.trans (by decide +kernel))
  · exact (congrArg (standard.render · kiosk) (by decide +kernel)).trans hnone
  · exact (congrArg (standard.render · kiosk) (by decide +kernel)).trans (hmembers.trans (by decide +kernel))

end Policy

end Stencil
