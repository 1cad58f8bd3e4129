import Stencil.Proofs.Template.LoopForm
import Stencil.Proofs.Template.Parser.Body
import Stencil.Proofs.Template.Parser.Piped

/-!
# What a parser makes of a loop

Between its marks a loop says which names it gives, and what it goes through. The body goes up to the word that ends
the loop, one level of nesting further in, and the parts of a form are read there as they are elsewhere.

Main statement: `yields_loopStatements`.
-/

namespace Stencil.Template

open Parse

variable {ts rest : List Token} {t : Token} {n m depth : Nat}

/-! ## Names -/

def LoopNames.Reads : LoopNames → Target → Prop
  | one x, t => ∃ line, t = .name x.name line
  | two x y _, t => ∃ l l' line, t = .parts [.name x.name l, .name y.name l'] line

/-- The name of a loop is none to which nothing can be assigned. -/
theorem LoopName.not_reserved (x : LoopName) : reservedNames.contains x.name = false := by
  obtain ⟨-, hfixed, -⟩ := of_isVariable x.isVariable
  have hfree := x.isFree
  simp only [fixedWords, List.mem_cons, List.not_mem_nil, or_false, not_or] at hfixed hfree
  simp [reservedNames, hfixed, hfree]

theorem LoopName.not_endsTargets (x : LoopName) : endsTargets (.name x.name) = false := by
  have hfree := x.isFree
  simp only [List.mem_cons, List.not_mem_nil, or_false, not_or] at hfree
  have hin : (Token.name x.name).isName "in" = false := beq_eq_false_iff_ne.mpr hfree.2.2
  simp only [endsTargets, hin]
  rfl

/-- A single name, be it where brackets may stand. -/
theorem yields_bracketable (inner : Parse Target) (x : LoopName) :
    Yields (.name x.name :: ts) (bracketable inner nameTarget) (fun t => ∃ line, t = .name x.name line) ts := by
  refine (yields_skipSign_of_not rfl).known ?_
  have hname : Yields (.name x.name :: ts) targetName (fun r => r.1 = x.name) ts := by
    refine yields_word.bind fun r hr => ?_
    obtain ⟨w, line⟩ := r
    obtain rfl : w = x.name := hr
    show Yields ts (if reservedNames.contains x.name then fail else pure (x.name, line)) _ _
    rw [x.not_reserved, if_neg Bool.false_ne_true]
    exact .pure rfl
  refine hname.bind fun r hr => ?_
  obtain ⟨w, line⟩ := r
  obtain rfl : w = x.name := hr
  exact .pure ⟨line, rfl⟩

/-- The last name of a list, behind its comma if there is one before. -/
theorem yields_targetItems_last (inner : Parse Target) (isLater : Bool) (x : LoopName)
    (ht : t.isSign .comma = false) :
    Yields ((if isLater then [.comma] else []) ++ .name x.name :: t :: rest)
      (targetItems (bracketable inner nameTarget) (n + 1) isLater)
      (fun r => ∃ line, r = ([.name x.name line], isLater)) (t :: rest) := by
  unfold targetItems
  -- Behind a comma, if there is one, the list goes on as it starts.
  extract_lets behindComma
  have hlast : Yields (.name x.name :: t :: rest) (behindComma ())
      (fun r => ∃ line, r = ([.name x.name line], isLater)) (t :: rest) := by
    refine yields_isNext.known ?_
    rw [x.not_endsTargets, if_neg Bool.false_ne_true]
    refine (yields_bracketable inner x).bind ?_
    rintro _ ⟨line, rfl⟩
    refine yields_isSign.known ?_
    rw [ht, if_neg Bool.false_ne_true]
    exact .pure ⟨line, rfl⟩
  cases isLater with
  | false => exact hlast
  | true => exact (yields_expectSign rfl).bind fun _ _ => hlast

/-- **Names are read as what a loop gives them to.** -/
theorem yields_targetAll (names : LoopNames) (ht : t.isSign .comma = false) :
    Yields (names.tokens ++ t :: rest) targetAll names.Reads (t :: rest) := by
  refine yields_remaining.known (yields_hereLine.bind fun line _ => ?_)
  cases names with
  | one x =>
      refine (yields_targetItems_last _ false x ht).bind ?_
      rintro _ ⟨l, rfl⟩
      exact .pure ⟨l, rfl⟩
  | two x y hne =>
      -- The second name, with the comma in front of it, is the last one that is read.
      have hlater (inner : Parse Target) (n : Nat) : Yields (.comma :: .name y.name :: t :: rest)
          (targetItems (bracketable inner nameTarget) (n + 1) true)
          (fun r => ∃ line, r = ([.name y.name line], true)) (t :: rest) :=
        yields_targetItems_last inner true y ht
      have hitems (inner : Parse Target) (n : Nat) :
          Yields (.name x.name :: .comma :: .name y.name :: t :: rest)
            (targetItems (bracketable inner nameTarget) (n + 2) false)
            (fun r => ∃ l l', r = ([.name x.name l, .name y.name l'], true)) (t :: rest) := by
        refine yields_isNext.known ?_
        rw [x.not_endsTargets, if_neg Bool.false_ne_true]
        refine (yields_bracketable inner x).bind ?_
        rintro _ ⟨l, rfl⟩
        refine yields_isSign.known ?_
        rw [show Token.comma.isSign .comma = true from rfl, if_pos rfl]
        refine (hlater inner n).bind ?_
        rintro _ ⟨l', rfl⟩
        exact .pure ⟨l, l', rfl⟩
      refine (hitems _ _).bind ?_
      rintro _ ⟨l, l', rfl⟩
      exact .pure ⟨l, l', line, rfl⟩

/-! ## Statements -/

theorem yields_newSerial : Yields ts newSerial (fun _ => True) ts :=
  fun _ hc => ⟨_, _, rfl, trivial, ⟨hc.tokens, hc.left, hc.fault⟩⟩

theorem yields_expectWord {s : String} : Yields (.name s :: ts) (expectWord s) (fun _ => True) ts :=
  yields_expect (beq_self_eq_true s)

def Loop.Reads (l : Loop) (stmt : Stmt) : Prop :=
  ∃ serial target subject body line, stmt = .loop serial target subject none false body [] line
    ∧ l.names.Reads target ∧ l.subject.Reads subject ∧ List.Forall₂ Fragment.Reads l.body.fragments body

/-- The parts of a form as a body that ends in front of a word. -/
theorem yields_bodyAt (f : Form) {word : String} {ends : List String} (hword : ends.contains word = true)
    (hdepth : 0 < depth) :
    Yields (f.fragments.flatMap Fragment.tokens ++ .openBlock :: .name word :: rest)
      (bodyAt (m + 2) (n + 1) (depth + 2) ends) (List.Forall₂ Fragment.Reads f.fragments)
      (.name word :: rest) := by
  have hlen : f.fragments.length ≤ (f.fragments.flatMap Fragment.tokens).length :=
    length_le_flatMap Fragment.tokens_length_pos
  refine yields_remaining.known (yields_statements ?_ (fun g _ rest => ?_) fun _ => yields_statements_close hword)
  · rw [List.length_append]
    omega
  · rw [Field.inner, List.append_assoc]
    exact yields_reference g.reference g.filters rfl hdepth

/-- The readers of a level of nesting. -/
def readersAt (bound n depth : Nat) : StmtReaders where
  expr := expression bound depth
  simple := disjunction bound depth
  args := argumentsAt bound depth
  body := bodyAt bound n depth

theorem bodyAt_succ (bound n depth : Nat) (ends : List String) :
    bodyAt bound (n + 1) (depth + 1) ends = (do
      statements (statement (readersAt bound n depth)) (expression bound (depth + 1)) ends
        ((← remaining) + 1)) := rfl

/-- **What a loop is read as**, up to the mark behind the word that ends it. -/
theorem yields_statement_loop (l : Loop) (rest : List Token) (hdepth : 0 < depth) :
    Yields (.name "for" :: (l.names.tokens ++ .name "in" :: (l.subject.tokens
        ++ .closeBlock :: (l.body.fragments.flatMap Fragment.tokens ++ .openBlock :: .name "endfor" :: rest))))
      (statement (readersAt (m + 2) (n + 1) (depth + 2))) l.Reads rest := by
  refine yields_word.bind fun k hk => ?_
  obtain ⟨w, line⟩ := k
  obtain rfl : w = "for" := hk
  show Yields _ (loop (readersAt (m + 2) (n + 1) (depth + 2)) line) _ _
  refine (yields_targetAll l.names rfl).bind fun target htarget => yields_expectWord.bind fun _ _ => ?_
  refine (yields_disjunction_piped l.subject _ rfl (Nat.succ_pos _)).bind fun subject hsubject => ?_
  refine (yields_skipWord_of_not rfl).known ?_
  extract_lets unconditioned
  rw [if_neg Bool.false_ne_true]
  refine Yields.known (.pure rfl) ((yields_skipWord_of_not rfl).known ?_)
  have hinner : Yields (.closeBlock :: (l.body.fragments.flatMap Fragment.tokens
        ++ .openBlock :: .name "endfor" :: rest))
      (bodyAfterTag (readersAt (m + 2) (n + 1) (depth + 2)) ["endfor", "else"])
      (List.Forall₂ Fragment.Reads l.body.fragments) (.name "endfor" :: rest) :=
    (yields_expectSign rfl).bind fun _ _ => yields_bodyAt l.body (by decide) hdepth
  refine hinner.bind fun body hreads => (yields_skipWord_of_not rfl).known ?_
  extract_lets unfinished
  rw [if_neg Bool.false_ne_true]
  refine Yields.known (.pure rfl) ?_
  have hend : Yields (.name "endfor" :: rest) takeEnd (fun _ => True) rest :=
    yields_next.bind fun _ _ => .pure trivial
  refine hend.bind fun _ _ => yields_newSerial.bind fun serial _ => .pure ?_
  exact ⟨serial, target, subject, body, line, rfl, htarget, hsubject, hreads⟩

/-- **A template that is a single loop is read as one statement.** -/
theorem yields_loopTemplate (l : Loop) :
    Yields l.tokens (bodyAt (l.tokens.length + 1) (l.tokens.length + 1) maxNesting [])
      (fun body => ∃ stmt, body = [stmt] ∧ l.Reads stmt) [] := by
  obtain ⟨k, hk⟩ : ∃ k, l.tokens.length = k + 1 := ⟨_, rfl⟩
  rw [hk, show maxNesting = 147 + 3 from rfl, bodyAt_succ]
  refine yields_remaining.known ?_
  have hloop := yields_statement_loop (m := k) (n := k) l [.closeBlock] (show 0 < 147 by decide)
  refine (yields_statements_block rfl hloop yields_statements_end).mono ?_
  rintro _ ⟨stmt, _, rfl, hstmt, rfl⟩
  exact ⟨stmt, rfl, hstmt⟩

end Stencil.Template
