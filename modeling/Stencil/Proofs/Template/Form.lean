import Stencil.Proofs.Template.Cutting
import Stencil.Template.Value

/-!
# Forms

The plainest templates: text with fields in it, each of which names a variable, or a member of one by the names
on the way to it. A name after a point is a word; between brackets and quotes it may be any text that needs no
escapes. A form carries the proofs that it is written as one, so that each of its parts is cut in one way only.

Main statement: `cuts_form` says what a form is cut into.
-/

namespace Stencil.Template

variable {made : List Token} {rest : List Char} {isBlock : Bool} {nesting : Int}

/-- The words that name no variable where an operand stands. -/
def fixedWords : List String := ["true", "True", "false", "False", "none", "None", "not"]

/-- Whether a text names a variable and nothing else: it is a word, has no meaning of its own, and is the name of
no function. -/
def isVariable (s : String) : Bool :=
  isWord s && !fixedWords.contains s && (Function.ofName? s).isNone

theorem of_isVariable {s : String} (h : isVariable s = true) :
    isWord s = true ∧ s ∉ fixedWords ∧ Function.ofName? s = none := by
  simpa [isVariable, and_assoc] using h

/-- There are at least as many tokens as parts that are made of some. -/
theorem length_le_flatMap {α β : Type} {f : α → List β} (hf : ∀ a, 0 < (f a).length) {l : List α} :
    l.length ≤ (l.flatMap f).length := by
  induction l with
  | nil => exact Nat.le_refl _
  | cons a l ih =>
      have := hf a
      simp only [List.flatMap_cons, List.length_append, List.length_cons]
      omega

/-- A step to a member of a value. -/
inductive Access where
  | dotted (name : String) (h : isWord name = true)
  | quoted (key : String) (h : isQuotable key = true)

namespace Access

def name : Access → String
  | dotted name _ => name
  | quoted key _ => key

/-- A step in writing. -/
def chars : Access → List Char
  | dotted name _ => '.' :: name.toList
  | quoted key _ => '[' :: ('"' :: key.toList ++ ['"', ']'])

/-- What a step is cut into. -/
def tokens : Access → List Token
  | dotted name _ => [.dot, .name name]
  | quoted key _ => [.openBracket, .string key true, .closeBracket]

theorem tokens_length_pos (a : Access) : 0 < a.tokens.length := by
  cases a <;> exact Nat.succ_pos _

end Access

/-- A variable and the steps from it to a member. -/
structure Reference where
  root : String
  isVariable : isVariable root = true
  accesses : List Access

namespace Reference

/-- The names of the members on the way. -/
def names (r : Reference) : List String := r.accesses.map Access.name

def chars (r : Reference) : List Char := r.root.toList ++ r.accesses.flatMap Access.chars

def tokens (r : Reference) : List Token := .name r.root :: r.accesses.flatMap Access.tokens

end Reference

/-- The filters behind an operand in writing. -/
def pipeChars (filters : List String) : List Char := filters.flatMap fun f => ' ' :: '|' :: ' ' :: f.toList

def pipeTokens (filters : List String) : List Token := filters.flatMap fun f => [.pipe, .name f]

/-- A place where a value is printed, as it is where it is said to be safe. -/
structure Field where
  reference : Reference
  isSafe : Bool

namespace Field

def filters (f : Field) : List String := if f.isSafe then ["safe"] else []

/-- A field in writing, with its marks. -/
def chars (f : Field) : List Char :=
  '\x7b' :: '\x7b' :: ' ' :: (f.reference.chars ++ (pipeChars f.filters ++ [' ', '\x7d', '\x7d']))

/-- What stands between the marks of a field, as tokens. -/
def inner (f : Field) : List Token := f.reference.tokens ++ pipeTokens f.filters

def tokens (f : Field) : List Token := .openPrint :: (f.inner ++ [.closePrint])

end Field

/-- A text in which no brace opens. -/
structure Literal where
  chars : List Char
  unmarked : '\x7b' ∉ chars

/-- A text with fields in it, each with the text that follows. -/
structure Form where
  lead : Literal
  rest : List (Field × Literal)

namespace Form

def chars (f : Form) : List Char := f.lead.chars ++ f.rest.flatMap fun p => p.1.chars ++ p.2.chars

def text (f : Form) : String := String.ofList f.chars

end Form

/-- A part of a form. -/
inductive Fragment where
  | text (cs : List Char)
  | field (f : Field)

/-- What a part is cut into. -/
def Fragment.tokens : Fragment → List Token
  | text cs => [.text cs]
  | field f => f.tokens

theorem Fragment.tokens_length_pos (p : Fragment) : 0 < p.tokens.length := by
  cases p <;> exact Nat.succ_pos _

/-- The part that a text is, unless it is empty. -/
def textFragments (cs : List Char) : List Fragment := if cs = [] then [] else [.text cs]

def Form.fragments (f : Form) : List Fragment :=
  textFragments f.lead.chars ++ f.rest.flatMap fun p => .field p.1 :: textFragments p.2.chars

theorem textTokens_eq (cs : List Char) : textTokens cs = (textFragments cs).flatMap Fragment.tokens := by
  unfold textTokens textFragments
  split <;> rfl

/-! ## Cutting -/

/-- Whether a word ends in front of a text. -/
def EndsWord (rest : List Char) : Prop := ∀ c ∈ rest.head?, continuesName c = false

theorem endsWord_cons {c : Char} {cs : List Char} (h : continuesName c = false) : EndsWord (c :: cs) := by
  intro d hd
  cases hd
  exact h

theorem endsWord_accesses (accesses : List Access) (h : EndsWord rest) :
    EndsWord (accesses.flatMap Access.chars ++ rest) := by
  match accesses with
  | [] => exact h
  | .dotted _ _ :: _ => exact endsWord_cons (by decide)
  | .quoted _ _ :: _ => exact endsWord_cons (by decide)

theorem cuts_access (a : Access) (hend : EndsWord rest) (h : Cuts (.code isBlock nesting) rest made) :
    Cuts (.code isBlock nesting) (a.chars ++ rest) (a.tokens ++ made) := by
  cases a with
  | dotted name hname =>
      have hword : Cuts (.code isBlock (nesting + 0)) (name.toList ++ rest) (.name name :: made) := by
        rw [Int.add_zero]
        exact cuts_word hname hend h
      exact cuts_sign (by decide) rfl rfl (by decide) hword
  | quoted key hkey =>
      have hclose : Cuts (.code isBlock (nesting + 1)) (']' :: rest) (.closeBracket :: made) := by
        refine cuts_sign (by decide) rfl rfl (by decide) ?_
        rwa [show nesting + 1 + Token.closeBracket.nesting = nesting from Int.add_neg_cancel_right _ _]
      have hopen : Cuts (.code isBlock nesting) ('[' :: ('"' :: key.toList ++ '"' :: ']' :: rest))
          (.openBracket :: .string key true :: .closeBracket :: made) :=
        cuts_sign (by decide) rfl rfl (by decide) (cuts_string hkey hclose)
      simpa [Access.chars, Access.tokens] using hopen

theorem cuts_accesses (accesses : List Access) (hend : EndsWord rest)
    (h : Cuts (.code isBlock nesting) rest made) :
    Cuts (.code isBlock nesting) (accesses.flatMap Access.chars ++ rest)
      (accesses.flatMap Access.tokens ++ made) := by
  induction accesses with
  | nil => exact h
  | cons a accesses ih =>
      rw [List.flatMap_cons, List.flatMap_cons, List.append_assoc, List.append_assoc]
      exact cuts_access a (endsWord_accesses accesses hend) ih

/-- **What a reference is cut into**, in front of anything that ends its last word. -/
theorem cuts_reference (r : Reference) (hend : EndsWord rest)
    (h : Cuts (.code isBlock nesting) rest made) :
    Cuts (.code isBlock nesting) (r.chars ++ rest) (r.tokens ++ made) := by
  rw [Reference.chars, List.append_assoc]
  exact cuts_word (of_isVariable r.isVariable).1 (endsWord_accesses r.accesses hend)
    (cuts_accesses r.accesses hend h)

theorem endsWord_pipes (filters : List String) (h : EndsWord rest) : EndsWord (pipeChars filters ++ rest) := by
  cases filters with
  | nil => exact h
  | cons f filters => exact endsWord_cons (by decide)

/-- **What filters are cut into.** -/
theorem cuts_pipes {filters : List String} (hwords : ∀ f ∈ filters, isWord f = true) (hend : EndsWord rest)
    (h : Cuts (.code isBlock nesting) rest made) :
    Cuts (.code isBlock nesting) (pipeChars filters ++ rest) (pipeTokens filters ++ made) := by
  induction filters with
  | nil => exact h
  | cons f filters ih =>
      obtain ⟨hf, hfilters⟩ := List.forall_mem_cons.mp hwords
      have hword : Cuts (.code isBlock (nesting + 0)) (' ' :: (f.toList ++ (pipeChars filters ++ rest)))
          (.name f :: (pipeTokens filters ++ made)) := by
        rw [Int.add_zero]
        exact cuts_space rfl (cuts_word hf (endsWord_pipes filters hend) (ih hfilters))
      have hpipe : Cuts (.code isBlock nesting) (' ' :: '|' :: ' ' :: (f.toList ++ (pipeChars filters ++ rest)))
          (.pipe :: .name f :: (pipeTokens filters ++ made)) :=
        cuts_space rfl (cuts_sign (by decide) rfl rfl (by decide) hword)
      simpa [pipeChars, pipeTokens] using hpipe

theorem Field.isWord_filters (f : Field) : ∀ name ∈ f.filters, isWord name = true := by
  unfold filters
  split <;> simp [isWord]
  decide

/-- **What a field is cut into**, behind a text. -/
theorem cuts_field (f : Field) {lead : List Char} (hlead : '\x7b' ∉ lead) (h : Cuts (.text false) rest made) :
    Cuts (.text false) (lead ++ (f.chars ++ rest)) (textTokens lead ++ (f.tokens ++ made)) := by
  have hclose : Cuts (.code false 0) (' ' :: '\x7d' :: '\x7d' :: rest) (.closePrint :: made) :=
    cuts_space rfl (cuts_closePrint h)
  have hend : EndsWord (' ' :: '\x7d' :: '\x7d' :: rest) := endsWord_cons (by decide)
  have hinner := cuts_space (c := ' ') rfl
    (cuts_reference f.reference (endsWord_pipes f.filters hend) (cuts_pipes f.isWord_filters hend hclose))
  simpa [Field.chars, Field.tokens, Field.inner] using cuts_openPrint hlead rfl hinner

/-- **What a form is cut into** where its last text is cut together with what comes behind the form. -/
theorem cuts_form_append (f : Form)
    (h : ∀ last : Literal, Cuts (.text false) (last.chars ++ rest) (textTokens last.chars ++ made)) :
    Cuts (.text false) (f.chars ++ rest) (f.fragments.flatMap Fragment.tokens ++ made) := by
  obtain ⟨lead, fields⟩ := f
  unfold Form.chars Form.fragments
  rw [List.flatMap_append, ← textTokens_eq]
  induction fields generalizing lead with
  | nil => simpa using h lead
  | cons p fields ih =>
      have hfields := cuts_field p.1 lead.unmarked (ih p.2)
      rw [textTokens_eq] at hfields ⊢
      simpa [Fragment.tokens, textTokens_eq] using hfields

/-- **What a form is cut into**: the tokens of its parts. -/
theorem cuts_form (f : Form) : Cuts (.text false) f.chars (f.fragments.flatMap Fragment.tokens) := by
  have hlast (last : Literal) : Cuts (.text false) (last.chars ++ []) (textTokens last.chars ++ []) := by
    simpa using cuts_text last.unmarked
  simpa using cuts_form_append f hlast

end Stencil.Template
