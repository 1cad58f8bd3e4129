import Stencil.Proofs.Preserves
import Stencil.Template.Parser.Cursor

/-!
# What a parser makes of words

The words that a parser returns stand among the tokens in front of it: where all words in front are in a
set, so are those that it returns, and those that it leaves are in the set still (`Keeps`). One lemma for
each way to put parsers together, and one for each parser of a single token.
-/

namespace Stencil.Template

/-- Whether a token is a word of a set, if it is a word. -/
def Placed.Spells (P : String → Prop) (t : Placed) : Prop := ∀ s, t.token = .name s → P s

/-- Whether all words among the tokens that are left are in a set. -/
def Cursor.Spells (P : String → Prop) (c : Cursor) : Prop := ∀ t ∈ c.tokens, t.Spells P

namespace Parse

variable {P : String → Prop} {α β : Type} {Q R : α → Prop} {S : β → Prop}

/-- Whether a parser that starts where all words left are in a set leaves only such words, and returns
only what meets a condition. -/
def Keeps (P : String → Prop) (p : Parse α) (Q : α → Prop) : Prop :=
  ∀ c, c.Spells P → ∀ x d, p c = .ok (x, d) → Q x ∧ d.Spells P

/-- No condition on what a parser returns. -/
def Any : α → Prop := fun _ => True

/-! ## Putting parsers together -/

theorem Keeps.pure {x : α} (h : Q x) : Keeps P (Pure.pure x) Q := Stencil.Preserves.pure h

theorem Keeps.bind {p : Parse α} {f : α → Parse β} (hp : Keeps P p Q)
    (hf : ∀ x, Q x → Keeps P (f x) S) : Keeps P (p >>= f) S := Stencil.Preserves.bind hp hf

theorem Keeps.mono {p : Parse α} (hp : Keeps P p Q) (h : ∀ x, Q x → R x) : Keeps P p R :=
  Stencil.Preserves.mono hp h

theorem Keeps.map {p : Parse α} {f : α → β} (hp : Keeps P p Q) (h : ∀ x, Q x → S (f x)) :
    Keeps P (f <$> p) S := Stencil.Preserves.map hp h

theorem Keeps.ite {b : Prop} [Decidable b] {p q : Parse α} (hp : b → Keeps P p Q)
    (hq : ¬ b → Keeps P q Q) : Keeps P (if b then p else q) Q := Stencil.Preserves.ite hp hq

/-- A parser that comes first only sometimes. -/
theorem Keeps.when {b : Prop} [Decidable b] {p : Parse PUnit} {f : PUnit → Parse α}
    (hp : Keeps P p Any) (hf : ∀ u, Keeps P (f u) Q) :
    Keeps P (if b then p >>= f else f PUnit.unit) Q :=
  .ite (fun _ => hp.bind fun u _ => hf u) fun _ => hf _

/-- One of two parsers that go on in the same way. -/
theorem Keeps.either {b : Prop} [Decidable b] {p q : Parse α} {f : α → Parse β}
    (hp : Keeps P p Q) (hq : Keeps P q Q) (hf : ∀ x, Q x → Keeps P (f x) S) :
    Keeps P (if b then p >>= f else q >>= f) S :=
  .ite (fun _ => hp.bind hf) fun _ => hq.bind hf

theorem keeps_pure {x : α} : Keeps P (Pure.pure x) Any := .pure trivial

theorem keeps_fail : Keeps P (fail : Parse α) Q := by
  intro c _ x d hd
  contradiction

/-! ## Single tokens -/

/-- Whether a token that may be there is one of a set, if it is a word. -/
def SpellsAny (P : String → Prop) (t? : Option Placed) : Prop := ∀ t ∈ t?, t.Spells P

theorem spells_of_cons {c : Cursor} (hc : c.Spells P) {t : Placed} {ts : List Placed}
    (ht : c.tokens = t :: ts) : SpellsAny P (some t) ∧ ∀ t' ∈ ts, t'.Spells P := by
  have hall : ∀ t' ∈ t :: ts, t'.Spells P := ht ▸ hc
  refine ⟨fun t' h => ?_, fun t' h => hall t' (List.mem_cons_of_mem t h)⟩
  cases h
  exact hall t List.mem_cons_self

theorem spellsAny_none : SpellsAny P none := fun t h => by contradiction

theorem keeps_peek : Keeps P peek (SpellsAny P) := by
  intro c hc x d hd
  unfold peek at hd
  split at hd
  · rename_i ht
    cases hd
    exact ⟨(spells_of_cons hc ht).1, hc⟩
  · split at hd
    · contradiction
    · cases hd
      exact ⟨spellsAny_none, hc⟩

theorem keeps_peekFaultless : Keeps P peekFaultless (SpellsAny P) := by
  intro c hc x d hd
  unfold peekFaultless at hd
  split at hd
  · rename_i ht
    cases hd
    exact ⟨(spells_of_cons hc ht).1, hc⟩
  · cases hd
    exact ⟨spellsAny_none, hc⟩

theorem keeps_next : Keeps P next (SpellsAny P) := by
  intro c hc x d hd
  unfold next at hd
  split at hd
  · rename_i ht
    cases hd
    exact spells_of_cons hc ht
  · split at hd
    · contradiction
    · cases hd
      exact ⟨spellsAny_none, hc⟩

theorem keeps_require : Keeps P require (Placed.Spells P) := by
  refine keeps_next.bind fun t? ht => ?_
  cases t? with
  | none => exact keeps_fail
  | some t => exact .pure (ht t rfl)

theorem keeps_hereLine : Keeps P hereLine Any := by
  intro c hc x d hd
  unfold hereLine at hd
  split at hd <;> cases hd <;> exact ⟨trivial, hc⟩

theorem keeps_lastLine : Keeps P lastLine Any := by
  intro c hc x d hd
  cases hd
  exact ⟨trivial, hc⟩

theorem keeps_newSerial : Keeps P newSerial Any := by
  intro c hc x d hd
  cases hd
  exact ⟨trivial, hc⟩

theorem keeps_remaining : Keeps P remaining Any := by
  intro c hc x d hd
  cases hd
  exact ⟨trivial, hc⟩

theorem keeps_isNext (p : Token → Bool) : Keeps P (isNext p) Any := by
  refine keeps_peek.bind fun t? _ => ?_
  cases t? <;> exact .pure trivial

theorem keeps_skip (p : Token → Bool) : Keeps P (skip p) Any :=
  (keeps_isNext p).bind fun _ _ =>
    .ite (fun _ => keeps_next.bind fun _ _ => .pure trivial) fun _ => .pure trivial

theorem keeps_expect (p : Token → Bool) : Keeps P (expect p) Any :=
  keeps_require.bind fun _ _ => .ite (fun _ => .pure trivial) fun _ => keeps_fail

theorem keeps_expectSign (t : Token) : Keeps P (expectSign t) Any := keeps_expect _

theorem keeps_skipSign (t : Token) : Keeps P (skipSign t) Any := keeps_skip _

theorem keeps_isSign (t : Token) : Keeps P (isSign t) Any := keeps_isNext _

theorem keeps_expectWord (s : String) : Keeps P (expectWord s) Any := keeps_expect _

theorem keeps_skipWord (s : String) : Keeps P (skipWord s) Any := keeps_skip _

/-- **A word that is taken is in the set.** -/
theorem keeps_word : Keeps P word fun r => P r.1 := by
  refine keeps_require.bind fun t ht => ?_
  split
  · rename_i s hs
    exact .pure (ht s hs)
  · exact keeps_fail

end Parse

end Stencil.Template
