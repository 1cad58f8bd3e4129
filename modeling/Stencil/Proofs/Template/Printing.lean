import Stencil.Proofs.Template.Walk

/-!
# What is printed of a reference

What a walk led to decides what is printed: nothing of null and of what is not there, a word of a truth value, the
digits of an integer, and a text itself, which is escaped where values are. Of what is said to be safe the text is
printed as it is.

Main statements: `printed_of_stands`, and `apply_safe` for what is said to be safe.
-/

namespace Stencil.Template

open Text.Html (escape)

/-- A text, escaped if values are. -/
def escapedIf (escapes : Bool) (cs : List Char) : List Char := if escapes then escape cs else cs

/-- What is printed of what a walk led to. -/
def shown (escapes : Bool) : Option Json → List Char
  | none | some .null => []
  | some (.bool b) => (if b then "true" else "false").toList
  | some (.number (.int n)) => (toString n).toList
  | some (.string s) => escapedIf escapes s.toList
  | some v => escapedIf escapes (Value.ofJson v).plainText

/-- What is printed of what a walk led to that is said to be safe. -/
def shownSafe : Option Json → List Char
  | none => []
  | some (.string s) => s.toList
  | some v => (Value.ofJson v).plainText

variable {escapes : Bool} {w : Option Json} {x : Value} {st : Store} {s : Surroundings} {e : Expr}
  {line : Nat}

/-! ## Integers in writing -/

theorem ofInt_eq_toString (n : Int) : Decimal.ofInt n = (toString n).toList := by
  have hdigits (m : Nat) : Decimal.digits m = (toString m).toList := (String.toList_ofList).symm
  cases n with
  | ofNat m =>
      have hnot : ¬ Int.ofNat m < 0 := Int.not_lt.mpr (Int.natCast_nonneg m)
      rw [Decimal.ofInt, if_neg hnot]
      exact hdigits m
  | negSucc m =>
      have htext : toString (Int.negSucc m) = "-" ++ toString (m + 1) := rfl
      rw [Decimal.ofInt, if_pos (Int.negSucc_lt_zero m), htext, String.toList_append]
      exact congrArg ('-' :: ·) (hdigits (m + 1))

/-- Where none of the five characters stands nothing is escaped. -/
theorem escape_of_free {cs : List Char} (h : Text.Html.Free cs) : escape cs = cs := by
  induction cs with
  | nil => rfl
  | cons c cs ih =>
      obtain ⟨hc, hcs⟩ := List.forall_mem_cons.mp h
      simp [ih hcs, Text.Html.escapeChar, Text.Html.entity?, hc]

theorem free_ofInt (n : Int) : Text.Html.Free (Decimal.ofInt n) := by
  have hdigits (m : Nat) : Text.Html.Free (Decimal.digits m) := by
    intro c hc
    have hdigit : c.isDigit = true := Nat.isDigit_of_mem_toDigits (by decide) (by decide) hc
    refine ⟨?_, ?_, ?_, ?_, ?_⟩ <;> rintro rfl <;> contradiction
  unfold Decimal.ofInt
  split
  · exact List.forall_mem_cons.mpr ⟨by decide, hdigits _⟩
  · exact hdigits _

/-! ## Printing -/

/-- A JSON value has nothing in it to look up where there is no namespace. -/
theorem Stands.view_eq (h : Stands w x) (hspaces : st.spaces = []) : st.view x = x := by
  unfold Store.view
  split
  · cases w with
    | none => cases h
    | some w =>
        obtain ⟨root, path, h⟩ := h
        cases w with
        | number n => cases n <;> cases h
        | null | bool _ | string _ | array _ | object _ => cases h
  · rw [hspaces, List.isEmpty_nil, if_pos rfl]

def modeOf (escapes : Bool) : EscapeMode := if escapes then .html else .none

/-- **What is printed of the value of a reference.** -/
theorem printed_of_stands (h : Stands w x) : printed (modeOf escapes) x = .ok (shown escapes w) := by
  match w with
  | none =>
      obtain rfl : x = .undefined := h
      rfl
  | some w =>
      obtain ⟨root, path, rfl⟩ := h
      have hplain (hprinted : printed (modeOf escapes) ((Value.ofJson w).rooted root path)
            = .ok (escapedIf escapes ((Value.ofJson w).rooted root path).plainText))
          (hshown : shown escapes (some w) = escapedIf escapes (Value.ofJson w).plainText) :
          printed (modeOf escapes) ((Value.ofJson w).rooted root path) = .ok (shown escapes (some w)) := by
        rw [hprinted, plainText_rooted, hshown]
      cases w with
      | null => rfl
      | bool b => cases b <;> rfl
      | string s => cases escapes <;> rfl
      | number n =>
          cases n with
          | float f => cases escapes <;> rfl
          | int n =>
              -- There is nothing to escape in digits and a sign.
              have hescaped : escapedIf escapes (Decimal.ofInt n) = Decimal.ofInt n := by
                cases escapes
                · rfl
                · exact escape_of_free (free_ofInt n)
              calc printed (modeOf escapes) (.int ⟨n, 0 ≤ n⟩)
                  = .ok (escapedIf escapes (Decimal.ofInt n)) := by cases escapes <;> rfl
                _ = .ok (toString n).toList := by rw [hescaped, ofInt_eq_toString]
      | array _ | object _ => exact hplain (by cases escapes <;> rfl) rfl

/-- What a value is that is said to be safe. -/
theorem plainText_of_stands (h : Stands w x) : x.plainText = shownSafe w := by
  match w with
  | none =>
      obtain rfl : x = .undefined := h
      rfl
  | some w =>
      obtain ⟨root, path, rfl⟩ := h
      rw [plainText_rooted]
      cases w <;> rfl

theorem anyText?_of_stands (h : Stands w x) : x.anyText? = some x.plain := by
  match w with
  | none =>
      obtain rfl : x = .undefined := h
      rfl
  | some w =>
      obtain ⟨root, path, rfl⟩ := h
      cases w with
      | number n => cases n <;> rfl
      | null | bool _ | string _ | array _ | object _ => rfl

/-- **What is said to be safe is its own text**, which is marked. -/
theorem apply_safe (mode : EscapeMode) (h : x.anyText? = some x.plain) :
    Filter.apply mode "safe" [x] = some (.ok (.string x.plain true)) := by
  have htext : Take.anyText [x] = .ok (x.plain, []) := by
    have hone : Take.anyText [x] = (Conversion.required Value.anyText? (some x)).map (·, []) := rfl
    rw [hone, Conversion.required, h]
    rfl
  have hsafe : Take.run Filter.safe [x] = .ok (.string x.plain true) := by
    rw [Take.run, Filter.safe, bind_of_ok htext]
    rfl
  exact congrArg some hsafe

/-- A filter without arguments is applied to the value of its subject. -/
theorem evalExpr_filter {name : String} {y : Value} (hx : evalExpr s e st = .ok (x, st))
    (happly : Filter.apply s.mode name [st.view x] = some (.ok y)) :
    evalExpr s (.filter name e [] line) st = .ok (y, st) := by
  have hfilter : applyFilter s (lineAfterArgs (e.lineAfter line) []) name [x] st = .ok (y, st) := by
    have hviews : Fill.views [x] st = .ok ([st.view x], st) := rfl
    rw [applyFilter, bind_of_ok hviews, happly]
    rfl
  rw [evalExpr, bind_of_ok hx]
  exact hfilter

/-- What is printed of an expression that is no call. -/
theorem evalPrint_of_evalExpr {out : List Char} (hcall : ∀ f args start, e ≠ .call f args start)
    (hx : evalExpr s e st = .ok (x, st)) (hout : printed s.mode (st.view x) = .ok out) :
    evalPrint s line e st = .ok (out, st) := by
  unfold evalPrint
  split
  · exact absurd rfl (hcall _ _ _)
  · have hview : Fill.view x st = .ok (st.view x, st) := rfl
    rw [bind_of_ok hx, bind_of_ok hview, hout]
    rfl

end Stencil.Template
