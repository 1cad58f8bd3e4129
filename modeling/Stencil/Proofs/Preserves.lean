/-!
# Steps that keep an invariant

A step works on a state, and may fail. It keeps an invariant when it leads from states that meet it to such
states only; what it returns meets a condition then. Steps that are put together keep what each of them
keeps, so a long program is gone through one step at a time.
-/

namespace Stencil

variable {σ ε α β : Type} {I : σ → Prop} {Q R : α → Prop} {S : β → Prop}

/-- Whether a step that succeeds from where an invariant holds leaves it to hold, and returns only what
meets a condition. -/
def Preserves (I : σ → Prop) (step : StateT σ (Except ε) α) (Q : α → Prop) : Prop :=
  ∀ s, I s → ∀ x t, step s = .ok (x, t) → Q x ∧ I t

/-- What comes after a step that succeeds. -/
theorem bind_of_ok {step : StateT σ (Except ε) α} {s t : σ} {x : α} (h : step s = .ok (x, t))
    (f : α → StateT σ (Except ε) β) : (step >>= f) s = f x t := by
  have hbind : (step >>= f) s = (step s).bind fun r => f r.1 r.2 := rfl
  rw [hbind, h]
  rfl

namespace Preserves

theorem pure {x : α} (h : Q x) : Preserves I (Pure.pure x : StateT σ (Except ε) α) Q := by
  intro s hs y t ht
  cases ht
  exact ⟨h, hs⟩

theorem bind {step : StateT σ (Except ε) α} {f : α → StateT σ (Except ε) β} (hp : Preserves I step Q)
    (hf : ∀ x, Q x → Preserves I (f x) S) : Preserves I (step >>= f) S := by
  intro s hs y t ht
  have ht' : (step s).bind (fun r => f r.1 r.2) = .ok (y, t) := ht
  cases hr : step s with
  | error e =>
      rw [hr] at ht'
      contradiction
  | ok r =>
      obtain ⟨hq, hi⟩ := hp s hs r.1 r.2 hr
      rw [hr] at ht'
      exact hf r.1 hq r.2 hi y t ht'

theorem mono {step : StateT σ (Except ε) α} (hp : Preserves I step Q) (h : ∀ x, Q x → R x) :
    Preserves I step R :=
  fun s hs x t ht => (hp s hs x t ht).imp (h x) id

theorem map {step : StateT σ (Except ε) α} {f : α → β} (hp : Preserves I step Q)
    (h : ∀ x, Q x → S (f x)) : Preserves I (f <$> step) S := by
  rw [map_eq_pure_bind]
  exact hp.bind fun x hx => .pure (h x hx)

theorem ite {b : Prop} [Decidable b] {p q : StateT σ (Except ε) α} (hp : b → Preserves I p Q)
    (hq : ¬ b → Preserves I q Q) : Preserves I (if b then p else q) Q := by
  split
  · exact hp ‹_›
  · exact hq ‹_›

/-- A step that always fails. -/
theorem fail (e : σ → ε) : Preserves I (fun s => .error (e s) : StateT σ (Except ε) α) Q := by
  intro s _ x t ht
  contradiction

end Preserves

end Stencil
