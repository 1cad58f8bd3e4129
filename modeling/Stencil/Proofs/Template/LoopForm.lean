import Stencil.Proofs.Template.Piped

/-!
# Loops in writing

A loop goes through what an operand becomes behind its filters, and fills a form for each of the items. It gives a
name to an item, or to each part of an item that has two.

Main statement: `cuts_loop` says what a loop is cut into.
-/

namespace Stencil.Template

variable {made : List Token} {rest : List Char} {isBlock : Bool} {nesting : Int}

/-- A name that a loop may give: that of a variable, and none that has a meaning in loops. -/
structure LoopName where
  name : String
  isVariable : isVariable name = true
  isFree : name ∉ ["loop", "self", "in"]

/-- What a loop gives names to: an item, or the two parts of one. -/
inductive LoopNames where
  | one (x : LoopName)
  | two (x y : LoopName) (h : x.name ≠ y.name)

namespace LoopNames

def chars : LoopNames → List Char
  | one x => x.name.toList
  | two x y _ => x.name.toList ++ ',' :: ' ' :: y.name.toList

def tokens : LoopNames → List Token
  | one x => [.name x.name]
  | two x y _ => [.name x.name, .comma, .name y.name]

end LoopNames

/-- A loop whose body is a form. In the body the name `loop` stands for the loop itself. -/
structure Loop where
  names : LoopNames
  subject : Piped
  body : Form
  isPlain : ∀ f ∈ body.rest.map Prod.fst, f.reference.root ≠ "loop"

/-- Every field of a form is in it with the text that follows. -/
theorem mem_of_field_mem_fragments {f : Form} {g : Field} (h : .field g ∈ f.fragments) :
    g ∈ f.rest.map Prod.fst := by
  have htext (cs : List Char) : .field g ∉ textFragments cs := by
    unfold textFragments
    split <;> simp
  simp only [Form.fragments, List.mem_append, htext, false_or, List.mem_flatMap, List.mem_cons, or_false] at h
  obtain ⟨p, hp, h⟩ := h
  cases h
  exact List.mem_map_of_mem hp

def endLoopChars : List Char := '\x7b' :: '%' :: ' ' :: ("endfor".toList ++ [' ', '%', '\x7d'])

def endLoopTokens : List Token := [.openBlock, .name "endfor", .closeBlock]

namespace Loop

def chars (l : Loop) : List Char :=
  '\x7b' :: '%' :: ' ' :: ("for".toList ++ ' ' :: (l.names.chars ++ ' ' :: ("in".toList ++ ' ' :: (l.subject.chars
    ++ ' ' :: '%' :: '\x7d' :: (l.body.chars ++ endLoopChars)))))

def tokens (l : Loop) : List Token :=
  .openBlock :: .name "for" :: (l.names.tokens ++ .name "in" :: (l.subject.tokens
    ++ .closeBlock :: (l.body.fragments.flatMap Fragment.tokens ++ endLoopTokens)))

/-- A template that is a single loop. -/
def text (l : Loop) : String := String.ofList l.chars

end Loop

/-! ## Cutting -/

theorem cuts_loopNames (names : LoopNames) (hend : EndsWord rest) (h : Cuts (.code isBlock nesting) rest made) :
    Cuts (.code isBlock nesting) (names.chars ++ rest) (names.tokens ++ made) := by
  cases names with
  | one x => exact cuts_word (of_isVariable x.isVariable).1 hend h
  | two x y hne =>
      have hy := cuts_word (of_isVariable y.isVariable).1 hend h
      have hcomma : Cuts (.code isBlock nesting) (',' :: ' ' :: (y.name.toList ++ rest))
          (.comma :: .name y.name :: made) := by
        refine cuts_sign (by decide) rfl rfl (by decide) ?_
        rw [show nesting + Token.comma.nesting = nesting from Int.add_zero _]
        exact cuts_space rfl hy
      simpa [LoopNames.chars, LoopNames.tokens] using
        cuts_word (of_isVariable x.isVariable).1 (endsWord_cons (by decide)) hcomma

/-- A word in front of a blank. -/
theorem cuts_wordBlank {s : String} (hs : isWord s = true) (h : Cuts (.code isBlock nesting) rest made) :
    Cuts (.code isBlock nesting) (s.toList ++ ' ' :: rest) (.name s :: made) :=
  cuts_word hs (endsWord_cons (by decide)) (cuts_space rfl h)

/-- The end of a loop, behind the last text of its body. -/
theorem cuts_endLoop (last : Literal) :
    Cuts (.text false) (last.chars ++ endLoopChars) (textTokens last.chars ++ endLoopTokens) := by
  have hclose : Cuts (.code true 0) ['%', '\x7d'] [.closeBlock] := cuts_closeBlock (cuts_text List.not_mem_nil)
  exact cuts_openBlock last.unmarked rfl rfl (cuts_space rfl (cuts_wordBlank (by decide +kernel) hclose))

/-- **What a loop is cut into.** -/
theorem cuts_loop (l : Loop) : Cuts (.text false) l.chars l.tokens := by
  -- From the end to the front: where a word ends is seen from what is behind it.
  have hclose : Cuts (.code true 0) (' ' :: '%' :: '\x7d' :: (l.body.chars ++ endLoopChars))
      (.closeBlock :: (l.body.fragments.flatMap Fragment.tokens ++ endLoopTokens)) :=
    cuts_space rfl (cuts_closeBlock (cuts_form_append l.body cuts_endLoop))
  have hin := cuts_wordBlank (s := "in") (by decide +kernel)
    (cuts_piped l.subject (endsWord_cons (by decide)) hclose)
  have hnames := cuts_loopNames l.names (endsWord_cons (by decide)) (cuts_space (c := ' ') rfl hin)
  have hfor := cuts_space (c := ' ') rfl (cuts_wordBlank (s := "for") (by decide +kernel) hnames)
  have hnone : '\x7b' ∉ ([] : List Char) := List.not_mem_nil
  exact cuts_openBlock hnone rfl rfl hfor

end Stencil.Template
