import Stencil.Proofs.Preserves
import Stencil.Template.Parser.Cursor

/-!
# What a parser makes of given tokens

A parser that stands in front of given tokens, of which none is followed by a fault, returns something, leaves
the rest of the tokens, and does not fail (`Yields`). Parsers that are put together yield what each of them
yields; lines are left open, since they are in the placed tokens alone.
-/

namespace Stencil.Template

/-- Whether a place is in front of some tokens, behind which a template ends. -/
structure Cursor.Faces (c : Cursor) (ts : List Token) : Prop where
  tokens : c.tokens.map Placed.token = ts
  left : c.left = ts.length
  fault : c.fault = none

/-- The first of the tokens that a place is in front of, and the place behind it. -/
theorem Cursor.Faces.cons {c : Cursor} {t : Token} {ts : List Token} (h : c.Faces (t :: ts)) :
    ∃ p more, c.tokens = p :: more ∧ p.token = t
      ∧ Cursor.Faces { c with tokens := more, left := c.left - 1, line := p.line } ts := by
  obtain ⟨p, more, hc, hp, hmore⟩ := List.map_eq_cons_iff.mp h.tokens
  exact ⟨p, more, hc, hp, hmore, by simp [h.left], h.fault⟩

theorem Cursor.Faces.nil {c : Cursor} (h : c.Faces []) : c.tokens = [] := List.map_eq_nil_iff.mp h.tokens

theorem faces_start {placed : List Placed} {ts : List Token} (h : placed.map Placed.token = ts) :
    (Cursor.start ⟨placed, none⟩).Faces ts := ⟨h, by rw [← h, List.length_map]; rfl, rfl⟩

namespace Parse

variable {α β : Type} {ts mid rest : List Token} {t : Token} {Q R : α → Prop} {S : β → Prop}

/-- Whether a parser in front of some tokens returns what meets a condition, in front of the rest of them. -/
def Yields (ts : List Token) (p : Parse α) (Q : α → Prop) (rest : List Token) : Prop :=
  ∀ c : Cursor, c.Faces ts → ∃ x d, p c = .ok (x, d) ∧ Q x ∧ d.Faces rest

/-! ## Putting parsers together -/

theorem Yields.pure {x : α} (h : Q x) : Yields ts (Pure.pure x) Q ts := fun c hc => ⟨x, c, rfl, h, hc⟩

theorem Yields.bind {p : Parse α} {f : α → Parse β} (hp : Yields ts p Q mid)
    (hf : ∀ x, Q x → Yields mid (f x) S rest) : Yields ts (p >>= f) S rest := by
  intro c hc
  obtain ⟨x, d, hx, hq, hd⟩ := hp c hc
  obtain ⟨y, e, hy, hs, he⟩ := hf x hq d hd
  exact ⟨y, e, by rw [bind_of_ok hx, hy], hs, he⟩

/-- What comes after a parser whose result is known. -/
theorem Yields.known {p : Parse α} {f : α → Parse β} {x : α} (hp : Yields ts p (· = x) mid)
    (hf : Yields mid (f x) S rest) : Yields ts (p >>= f) S rest := hp.bind fun _ hy => hy ▸ hf

theorem Yields.mono {p : Parse α} (hp : Yields ts p Q rest) (h : ∀ x, Q x → R x) : Yields ts p R rest := by
  intro c hc
  obtain ⟨x, d, hx, hq, hd⟩ := hp c hc
  exact ⟨x, d, hx, h x hq, hd⟩

theorem Yields.map {p : Parse α} {f : α → β} (hp : Yields ts p Q rest) (h : ∀ x, Q x → S (f x)) :
    Yields ts (f <$> p) S rest := by
  rw [map_eq_pure_bind]
  exact hp.bind fun x hx => .pure (h x hx)

/-! ## Single tokens -/

/-- Whether a token that may be there is a given one. -/
def IsToken (t : Token) (t? : Option Placed) : Prop := ∃ line, t? = some ⟨t, line⟩

theorem yields_peek : Yields (t :: ts) peek (IsToken t) (t :: ts) := by
  intro c hc
  obtain ⟨p, more, hmore, rfl, -⟩ := hc.cons
  exact ⟨some p, c, by simp only [peek, hmore], ⟨p.line, rfl⟩, hc⟩

theorem yields_peekFaultless : Yields (t :: ts) peekFaultless (IsToken t) (t :: ts) := by
  intro c hc
  obtain ⟨p, more, hmore, rfl, -⟩ := hc.cons
  exact ⟨some p, c, by simp only [peekFaultless, hmore], ⟨p.line, rfl⟩, hc⟩

theorem yields_next : Yields (t :: ts) next (IsToken t) ts := by
  intro c hc
  obtain ⟨p, more, hmore, rfl, hd⟩ := hc.cons
  exact ⟨some p, _, by simp only [Parse.next, hmore], ⟨p.line, rfl⟩, hd⟩

theorem yields_next_nil : Yields [] next (· = none) [] := by
  intro c hc
  exact ⟨none, c, by simp only [Parse.next, hc.nil, hc.fault], rfl, hc⟩

theorem yields_require : Yields (t :: ts) require (fun p => p.token = t) ts := by
  refine yields_next.bind fun t? ht => ?_
  obtain ⟨line, rfl⟩ := ht
  exact .pure rfl

theorem yields_hereLine : Yields ts hereLine (fun _ => True) ts := by
  intro c hc
  unfold hereLine
  split
  · exact ⟨_, c, rfl, trivial, hc⟩
  · exact ⟨_, c, rfl, trivial, hc⟩

theorem yields_lastLine : Yields ts lastLine (fun _ => True) ts := fun c hc => ⟨_, c, rfl, trivial, hc⟩

theorem yields_remaining : Yields ts remaining (· = ts.length) ts := fun c hc => ⟨_, c, rfl, hc.left, hc⟩

variable {p : Token → Bool}

theorem yields_isNext : Yields (t :: ts) (isNext p) (· = p t) (t :: ts) := by
  refine yields_peek.bind fun t? ht => ?_
  obtain ⟨line, rfl⟩ := ht
  exact .pure rfl

/-- A token of the kind that may be skipped is taken. -/
theorem yields_skip (h : p t = true) : Yields (t :: ts) (skip p) (· = true) ts := by
  refine yields_isNext.known ?_
  rw [h, if_pos rfl]
  exact yields_next.bind fun _ _ => .pure rfl

/-- A token of another kind stays. -/
theorem yields_skip_of_not (h : p t = false) : Yields (t :: ts) (skip p) (· = false) (t :: ts) := by
  refine yields_isNext.known ?_
  rw [h, if_neg Bool.false_ne_true]
  exact .pure rfl

theorem yields_expect (h : p t = true) : Yields (t :: ts) (expect p) (fun _ => True) ts := by
  refine yields_require.bind fun q hq => ?_
  rw [hq, if_pos h]
  exact .pure trivial

variable {sign : Token} {s : String}

theorem yields_isSign : Yields (t :: ts) (isSign sign) (· = t.isSign sign) (t :: ts) := yields_isNext

theorem yields_skipSign (h : t.isSign sign = true) : Yields (t :: ts) (skipSign sign) (· = true) ts :=
  yields_skip h

theorem yields_skipSign_of_not (h : t.isSign sign = false) :
    Yields (t :: ts) (skipSign sign) (· = false) (t :: ts) := yields_skip_of_not h

theorem yields_expectSign (h : t.isSign sign = true) :
    Yields (t :: ts) (expectSign sign) (fun _ => True) ts := yields_expect h

theorem yields_skipWord_of_not (h : t.isName s = false) :
    Yields (t :: ts) (skipWord s) (· = false) (t :: ts) := yields_skip_of_not h

theorem yields_word : Yields (.name s :: ts) word (fun r => r.1 = s) ts := by
  refine yields_require.bind fun q hq => ?_
  rw [hq]
  exact .pure rfl

end Parse

end Stencil.Template
