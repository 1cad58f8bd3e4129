import Stencil.Inputs
import Stencil.Proofs.Text.Trim

/-!
# What a search for an input comes to

The sources of a run answer for an input one after the other, and only their answers matter: the first that
is not blank decides, be it a text or a failure. What is collected from the sources is then made of three
answers, one for each input (`collect_eq`), so sources that answer alike are as good as each other.

Main statements: `lookup_value` says what is found, `first_eq_some_iff` and its siblings say which answer
that is.
-/

namespace Stencil

open Text

/-- A result that has a value is that value. -/
theorem ok_of_toOption {ε α : Type} {r : Except ε α} {x : α} (h : r.toOption = some x) : r = .ok x := by
  cases r with
  | error e => cases h
  | ok y => exact congrArg Except.ok (Option.some.inj h)

/-- What a place answers that is asked for an input: nothing, a text, or why it has none that can be used. -/
abbrev Answer := Except Failure (Option String)

namespace Answer

/-- Whether an answer is passed over: it is nothing, or nothing but blanks. -/
def isBlank : Answer → Bool
  | .ok none => true
  | .ok (some text) => isBlankText text
  | .error _ => false

/-- The first of several answers that is not blank, a text without the blanks around it. -/
def first : List Answer → Answer
  | [] => .ok none
  | .error f :: _ => .error f
  | .ok none :: rest => first rest
  | .ok (some text) :: rest => if isBlankText text then first rest else .ok (some (trimmed text))

/-- Whether a value is the first text among answers that is not blank, without the blanks around it. -/
def FirstFilled (answers : List Answer) (value : String) : Prop :=
  ∃ before text after, answers = before ++ .ok (some text) :: after
    ∧ (∀ a ∈ before, isBlank a = true) ∧ isBlankText text = false ∧ value = trimmed text

/-- Whether the first answer that is not blank is a failure. -/
def FirstFails (answers : List Answer) (f : Failure) : Prop :=
  ∃ before after, answers = before ++ .error f :: after ∧ ∀ a ∈ before, isBlank a = true

def AllBlank (answers : List Answer) : Prop := ∀ a ∈ answers, isBlank a = true

variable {a : Answer} {answers rest : List Answer} {value : String} {f : Failure}

theorem first_cons_of_blank (h : isBlank a = true) : first (a :: rest) = first rest := by
  match a with
  | .ok none => rfl
  | .ok (some text) => simp only [first, show isBlankText text = true from h, if_true]

theorem first_append_of_blank {before : List Answer} (h : AllBlank before) :
    first (before ++ rest) = first rest := by
  induction before with
  | nil => rfl
  | cons a before ih =>
      obtain ⟨ha, hbefore⟩ := List.forall_mem_cons.mp h
      rw [List.cons_append, first_cons_of_blank ha, ih hbefore]

/-- **What answers come to**: all are blank, or the first that is not decides. -/
theorem first_cases (answers : List Answer) :
    AllBlank answers ∧ first answers = .ok none
      ∨ (∃ value, FirstFilled answers value ∧ first answers = .ok (some value))
      ∨ ∃ f, FirstFails answers f ∧ first answers = .error f := by
  induction answers with
  | nil => exact .inl ⟨List.forall_mem_nil _, rfl⟩
  | cons a rest ih =>
      cases ha : isBlank a with
      | true =>
          rw [first_cons_of_blank ha]
          rcases ih with ⟨hall, hfirst⟩ | ⟨value, ⟨before, text, after, rfl, hb, ht⟩, hfirst⟩
            | ⟨f, ⟨before, after, rfl, hb⟩, hfirst⟩
          · exact .inl ⟨List.forall_mem_cons.mpr ⟨ha, hall⟩, hfirst⟩
          · exact .inr (.inl ⟨value,
              ⟨a :: before, text, after, rfl, List.forall_mem_cons.mpr ⟨ha, hb⟩, ht⟩, hfirst⟩)
          · exact .inr (.inr ⟨f, ⟨a :: before, after, rfl, List.forall_mem_cons.mpr ⟨ha, hb⟩⟩, hfirst⟩)
      | false =>
          match a with
          | .error f => exact .inr (.inr ⟨f, ⟨[], rest, rfl, List.forall_mem_nil _⟩, rfl⟩)
          | .ok (some text) =>
              have ht : isBlankText text = false := ha
              exact .inr (.inl ⟨trimmed text, ⟨[], text, rest, rfl, List.forall_mem_nil _, ht, rfl⟩,
                by rw [first, ht, if_neg Bool.false_ne_true]⟩)

theorem first_eq_some_iff : first answers = .ok (some value) ↔ FirstFilled answers value := by
  constructor
  · intro h
    rcases first_cases answers with ⟨-, hf⟩ | ⟨v, hv, hf⟩ | ⟨f, -, hf⟩ <;> rw [hf] at h <;> cases h
    exact hv
  · rintro ⟨before, text, after, rfl, hb, ht, rfl⟩
    rw [first_append_of_blank hb, first, ht, if_neg Bool.false_ne_true]

theorem first_eq_error_iff : first answers = .error f ↔ FirstFails answers f := by
  constructor
  · intro h
    rcases first_cases answers with ⟨-, hf⟩ | ⟨v, -, hf⟩ | ⟨g, hg, hf⟩ <;> rw [hf] at h <;> cases h
    exact hg
  · rintro ⟨before, after, rfl, hb⟩
    rw [first_append_of_blank hb, first]

theorem first_eq_none_iff : first answers = .ok none ↔ AllBlank answers := by
  constructor
  · intro h
    rcases first_cases answers with ⟨hall, -⟩ | ⟨v, -, hf⟩ | ⟨f, -, hf⟩
    · exact hall
    · rw [hf] at h
      cases h
    · rw [hf] at h
      cases h
  · intro h
    rw [← List.append_nil answers, first_append_of_blank h, first]

theorem FirstFilled.isBlankText_eq_false (h : FirstFilled answers value) :
    isBlankText value = false := by
  obtain ⟨-, text, -, -, -, ht, rfl⟩ := h
  rw [isBlankText_trimmed, ht]

end Answer

variable {fs fs' : Files} {stdin stdin' : Content} {sources others : List Source} {input : String}

def answersOf (fs : Files) (stdin : Content) (sources : List Source) (input : String) : List Answer :=
  sources.map fun s => s.value fs stdin input

/-- **What is found is the first answer that is not blank.** -/
theorem lookup_value :
    (lookup fs stdin sources input).map (Option.map Found.value)
      = Answer.first (answersOf fs stdin sources input) := by
  unfold answersOf
  induction sources with
  | nil => rfl
  | cons s rest ih =>
      rw [lookup, List.map_cons]
      cases s.value fs stdin input with
      | error f => rfl
      | ok found =>
          cases found with
          | none => exact ih
          | some text =>
              dsimp only
              rw [Answer.first]
              split
              · exact ih
              · rfl

namespace Inputs

/-- The template that the answers for its two inputs make. -/
def chosenFrom : Option String → Option String → Except Failure TemplateSource
  | some text, _ => .ok (.inline text)
  | none, some path => .ok (.file ⟨path⟩)
  | none, none => .error (.missingInput [Input.templateText, Input.templateFile])

/-- The text of the variables, which has to be there. -/
def required : Option String → Except Failure String
  | some vars => .ok vars
  | none => .error (.missingInput [Input.templateVars])

/-- The inputs that three answers make. -/
def ofAnswers (text file vars : Answer) : Except Failure Inputs := do
  let text ← text
  let file ← file
  let template ← chosenFrom text file
  let vars ← required (← vars)
  pure ⟨template, vars⟩

/-- Inputs are made only where every answer that is needed is there. -/
theorem of_ofAnswers {text file vars : Answer} {i : Inputs} (h : ofAnswers text file vars = .ok i) :
    ∃ t p, text = .ok t ∧ file = .ok p ∧ chosenFrom t p = .ok i.template ∧ vars = .ok (some i.vars) := by
  match text, file, vars with
  | .error _, _, _ | .ok _, .error _, _ | .ok none, .ok none, _ => cases h
  | .ok (some _), .ok _, .error _ | .ok (some _), .ok _, .ok none => cases h
  | .ok none, .ok (some _), .error _ | .ok none, .ok (some _), .ok none => cases h
  | .ok (some text), .ok path, .ok (some vars) =>
      cases h
      exact ⟨some text, path, rfl, rfl, rfl, rfl⟩
  | .ok none, .ok (some path), .ok (some vars) =>
      cases h
      exact ⟨none, some path, rfl, rfl, rfl, rfl⟩

/-- **What is collected is made of the first answers for the three inputs.** -/
theorem collect_eq (fs : Files) (stdin : Content) (sources : List Source) :
    collect fs stdin sources
      = ofAnswers (Answer.first (answersOf fs stdin sources Input.templateText))
          (Answer.first (answersOf fs stdin sources Input.templateFile))
          (Answer.first (answersOf fs stdin sources Input.templateVars)) := by
  rw [← lookup_value, ← lookup_value, ← lookup_value, collect, template?, vars?]
  cases lookup fs stdin sources Input.templateText with
  | error f => rfl
  | ok text =>
      cases lookup fs stdin sources Input.templateFile with
      | error f => rfl
      | ok file =>
          cases lookup fs stdin sources Input.templateVars with
          | error f => cases text <;> cases file <;> rfl
          | ok vars => cases text <;> cases file <;> cases vars <;> rfl

end Inputs

end Stencil
