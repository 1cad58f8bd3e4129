import Stencil.Proofs.Template.Form

/-!
# Operands with filters behind them

What stands between two marks is most often an operand and the filters that it is passed through. The operand is
a reference or a constant, and a filter may be given constants as its arguments. The constants here are texts
between quotes and the word for what is true.

Main statement: `cuts_piped` says what such an expression is cut into.
-/

namespace Stencil.Template

variable {made : List Token} {rest : List Char} {isBlock : Bool} {nesting : Int}

/-- A constant that is written out: a text between quotes, or the word for what is true. -/
inductive Given where
  | text (s : String) (h : isQuotable s = true)
  | yes

namespace Given

/-- A constant in writing. -/
def chars : Given → List Char
  | text s _ => '"' :: s.toList ++ ['"']
  | yes => "true".toList

/-- What a constant is cut into. -/
def token : Given → Token
  | text s _ => .string s true
  | yes => .name "true"

/-- The value that a constant stands for. -/
def value : Given → Value
  | text s _ => .text s
  | yes => .bool true

end Given

/-- Arguments in writing, with their brackets. -/
def argumentChars : List Given → List Char
  | [] => ['(', ')']
  | g :: gs => '(' :: (g.chars ++ (gs.flatMap (fun g => ',' :: ' ' :: g.chars) ++ [')']))

/-- What the arguments after the first are cut into. -/
def laterTokens (gs : List Given) : List Token := gs.flatMap fun g => [.comma, g.token]

def argumentTokens : List Given → List Token
  | [] => [.openParen, .closeParen]
  | g :: gs => .openParen :: g.token :: (laterTokens gs ++ [.closeParen])

/-- A filter in writing, with its arguments if it has brackets. -/
structure Pipe where
  name : String
  isWord : isWord name = true
  args : Option (List Given)
  /-- No filter takes more arguments than that. -/
  few : (args.getD []).length ≤ 2000

namespace Pipe

/-- A filter without brackets. -/
def plain (name : String) (h : Template.isWord name = true) : Pipe := ⟨name, h, none, Nat.zero_le _⟩

/-- The arguments of a filter. -/
def given (f : Pipe) : List Given := f.args.getD []

/-- A filter in writing. -/
def chars (f : Pipe) : List Char :=
  ' ' :: '|' :: ' ' :: (f.name.toList ++ (f.args.map argumentChars).getD [])

/-- What a filter is cut into. -/
def tokens (f : Pipe) : List Token := .pipe :: .name f.name :: (f.args.map argumentTokens).getD []

theorem tokens_length_pos (f : Pipe) : 0 < f.tokens.length := Nat.succ_pos _

end Pipe

/-- What filters stand behind. -/
inductive Subject where
  | reference (r : Reference)
  | given (g : Given)

namespace Subject

/-- An operand in writing. -/
def chars : Subject → List Char
  | reference r => r.chars
  | given g => g.chars

/-- What an operand is cut into. -/
def tokens : Subject → List Token
  | reference r => r.tokens
  | given g => [g.token]

end Subject

/-- An operand with filters behind it. -/
structure Piped where
  subject : Subject
  pipes : List Pipe

namespace Piped

/-- An operand with its filters in writing. -/
def chars (e : Piped) : List Char := e.subject.chars ++ e.pipes.flatMap Pipe.chars

/-- What an operand with its filters is cut into. -/
def tokens (e : Piped) : List Token := e.subject.tokens ++ e.pipes.flatMap Pipe.tokens

end Piped

/-! ## Cutting -/

/-- What a constant is cut into, in front of anything that ends a word. -/
theorem cuts_given (g : Given) (hend : EndsWord rest) (h : Cuts (.code isBlock nesting) rest made) :
    Cuts (.code isBlock nesting) (g.chars ++ rest) (g.token :: made) := by
  cases g with
  | text s hs => simpa [Given.chars, Given.token] using cuts_string hs h
  | yes => exact cuts_word (by decide +kernel) hend h

/-- The bracket that ends arguments. -/
theorem cuts_closeParen (h : Cuts (.code isBlock nesting) rest made) :
    Cuts (.code isBlock (nesting + 1)) (')' :: rest) (.closeParen :: made) := by
  refine cuts_sign (by decide) rfl rfl (by decide) ?_
  rwa [show nesting + 1 + Token.closeParen.nesting = nesting from Int.add_neg_cancel_right _ _]

theorem cuts_laterArguments (gs : List Given) (hend : EndsWord rest)
    (h : Cuts (.code isBlock nesting) rest made) :
    EndsWord (gs.flatMap (fun g => ',' :: ' ' :: g.chars) ++ rest) ∧
    Cuts (.code isBlock nesting) (gs.flatMap (fun g => ',' :: ' ' :: g.chars) ++ rest)
      (laterTokens gs ++ made) := by
  induction gs with
  | nil => exact ⟨hend, h⟩
  | cons g gs ih =>
      obtain ⟨hends, hcuts⟩ := ih
      have hgiven : Cuts (.code isBlock (nesting + 0))
          (' ' :: (g.chars ++ (gs.flatMap (fun g => ',' :: ' ' :: g.chars) ++ rest)))
          (g.token :: (laterTokens gs ++ made)) := by
        rw [Int.add_zero]
        exact cuts_space rfl (cuts_given g hends hcuts)
      have hcomma : Cuts (.code isBlock nesting)
          (',' :: ' ' :: (g.chars ++ (gs.flatMap (fun g => ',' :: ' ' :: g.chars) ++ rest)))
          (.comma :: g.token :: (laterTokens gs ++ made)) :=
        cuts_sign (by decide) rfl rfl (by decide) hgiven
      exact ⟨endsWord_cons (by decide), by simpa [laterTokens] using hcomma⟩

/-- **What arguments are cut into.** -/
theorem cuts_arguments (gs : List Given) (h : Cuts (.code isBlock nesting) rest made) :
    Cuts (.code isBlock nesting) (argumentChars gs ++ rest) (argumentTokens gs ++ made) := by
  have hclose := cuts_closeParen h
  have hopen {cs : List Char} {ts : List Token} (hcs : Cuts (.code isBlock (nesting + 1)) cs ts) :
      Cuts (.code isBlock nesting) ('(' :: cs) (.openParen :: ts) :=
    cuts_sign (by decide) rfl rfl (by decide) hcs
  cases gs with
  | nil => exact hopen hclose
  | cons g gs =>
      obtain ⟨hends, hlater⟩ := cuts_laterArguments gs (endsWord_cons (by decide)) hclose
      simpa [argumentChars, argumentTokens] using hopen (cuts_given g hends hlater)

/-- **What a filter is cut into**, with its arguments. -/
theorem cuts_pipe (f : Pipe) (hend : EndsWord rest) (h : Cuts (.code isBlock nesting) rest made) :
    Cuts (.code isBlock nesting) (f.chars ++ rest) (f.tokens ++ made) := by
  obtain ⟨name, hname, args, few⟩ := f
  have hpipe {cs : List Char} {ts : List Token} (hcs : Cuts (.code isBlock nesting) cs ts) :
      Cuts (.code isBlock nesting) (' ' :: '|' :: ' ' :: cs) (.pipe :: ts) := by
    have hspace : Cuts (.code isBlock (nesting + 0)) (' ' :: cs) ts := by
      rw [Int.add_zero]
      exact cuts_space rfl hcs
    exact cuts_space rfl (cuts_sign (by decide) rfl rfl (by decide) hspace)
  cases args with
  | none => simpa [Pipe.chars, Pipe.tokens] using hpipe (cuts_word hname hend h)
  | some gs =>
      have hargs := cuts_arguments gs h
      have hends : EndsWord (argumentChars gs ++ rest) := by
        cases gs <;> exact endsWord_cons (by decide)
      simpa [Pipe.chars, Pipe.tokens] using hpipe (cuts_word hname hends hargs)

theorem endsWord_pipeChars (pipes : List Pipe) (h : EndsWord rest) :
    EndsWord (pipes.flatMap Pipe.chars ++ rest) := by
  cases pipes with
  | nil => exact h
  | cons f pipes => exact endsWord_cons (by decide)

/-- **What an operand with filters is cut into**, in front of anything that ends its last word. -/
theorem cuts_piped (e : Piped) (hend : EndsWord rest) (h : Cuts (.code isBlock nesting) rest made) :
    Cuts (.code isBlock nesting) (e.chars ++ rest) (e.tokens ++ made) := by
  obtain ⟨subject, pipes⟩ := e
  have hpipes : Cuts (.code isBlock nesting) (pipes.flatMap Pipe.chars ++ rest)
      (pipes.flatMap Pipe.tokens ++ made) := by
    induction pipes with
    | nil => exact h
    | cons f pipes ih =>
        rw [List.flatMap_cons, List.flatMap_cons, List.append_assoc, List.append_assoc]
        exact cuts_pipe f (endsWord_pipeChars pipes hend) ih
  have hends := endsWord_pipeChars pipes hend
  rw [Piped.chars, Piped.tokens, List.append_assoc, List.append_assoc]
  cases subject with
  | reference r => exact cuts_reference r hends hpipes
  | given g => exact cuts_given g hends hpipes

end Stencil.Template
