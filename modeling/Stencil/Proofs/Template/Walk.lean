import Mathlib.Logic.Basic
import Stencil.Proofs.Preserves
import Stencil.Proofs.Template.Parser.Operand
import Stencil.Proofs.Text.Html
import Stencil.Template.Evaluation

/-!
# What a reference evaluates to

The value of a reference stands for what a walk by its names leads to (`Stands`). One step keeps this, be it
written with a point or with brackets: a step from an object leads to its member, and a step from anything else,
or to a member that is not there, leads to what is undefined, and no step fails. So does a walk of any length,
by induction.

Where a value is from does not show in its text (`plainText_rooted`).

Main statement: `evalExpr_refers`.
-/

namespace Stencil.Template

open Decimal

/-! ## Texts of values with origins -/

def bracketedItems (texts : List (List Char)) : List Char := '[' :: commaSeparated texts ++ [']']

def bracedEntries (texts : List (List Char)) : List Char := '\x7b' :: commaSeparated texts ++ ['\x7d']

mutual

theorem innerText_rooted (root : Root) :
    ∀ (v : Value) (path : List Nat), (v.rooted root path).innerText = v.innerText
  | .list items none, path => congrArg bracketedItems (innerTexts_rooted root items path 0)
  | .iterator items (.counted _) none, path | .iterator items (.claimed _) none, path =>
      congrArg bracketedItems (innerTexts_rooted root items path 0)
  | .iterator _ .uncounted none, _ | .iterator _ .failing none, _ => rfl
  | .map entries none, path => congrArg bracedEntries (entryTexts_rooted root entries path 0)
  | .group key items none, path =>
      congrArg bracketedItems (congrArg₂ (fun k texts => [k, bracketedItems texts])
        (innerText_rooted root key (0 :: path)) (innerTexts_rooted root items path 1))
  | .overlay _ _ none, _ | .record _ _ none, _ => rfl
  | .list _ (some _), _ | .iterator _ _ (some _), _ | .map _ (some _), _
  | .overlay _ _ (some _), _ | .group _ _ (some _), _ | .record _ _ (some _), _ => rfl
  | .string _ _, _ | .keywords _, _ => rfl
  | .undefined, _ | .none, _ | .bool _, _ | .int _, _ | .float _, _
  | .routine _, _ | .function _, _ | .loop _, _ | .space _, _ => rfl

theorem innerTexts_rooted (root : Root) :
    ∀ (vs : List Value) (path : List Nat) (n : Nat), innerTexts (rootedItems root path n vs) = innerTexts vs
  | [], _, _ => rfl
  | v :: vs, path, n =>
      congrArg₂ List.cons (innerText_rooted root v (n :: path)) (innerTexts_rooted root vs path (n + 1))

theorem entryTexts_rooted (root : Root) :
    ∀ (es : List (Value × Value)) (path : List Nat) (n : Nat),
      entryTexts (rootedEntries root path n es) = entryTexts es
  | [], _, _ => rfl
  | (k, v) :: es, path, n =>
      congrArg₂ List.cons
        (congrArg₂ (fun k v => k ++ ':' :: ' ' :: v) (innerText_rooted root k (n :: path))
          (innerText_rooted root v ((n + 1) :: path)))
        (entryTexts_rooted root es path (n + 2))

end

/-- **Where a value is from does not show in its text.** -/
theorem plainText_rooted (root : Root) :
    ∀ (v : Value) (path : List Nat), (v.rooted root path).plainText = v.plainText
  | .list items none, path => innerText_rooted root (.list items none) path
  | .iterator items extent none, path => innerText_rooted root (.iterator items extent none) path
  | .map entries none, path => innerText_rooted root (.map entries none) path
  | .group key items none, path => innerText_rooted root (.group key items none) path
  | .overlay _ _ none, _ | .record _ _ none, _ => rfl
  | .list _ (some _), _ | .iterator _ _ (some _), _ | .map _ (some _), _
  | .overlay _ _ (some _), _ | .group _ _ (some _), _ | .record _ _ (some _), _ => rfl
  | .string _ _, _ | .keywords _, _ => rfl
  | .undefined, _ | .none, _ | .bool _, _ | .int _, _ | .float _, _
  | .routine _, _ | .function _, _ | .loop _, _ | .space _, _ => rfl

/-! ## Members -/

variable {name key : String} {names : List String} {w : Option Json} {v : Value} {st : Store}
  {s : Surroundings} {e : Expr} {root : String} {line : Nat}

/-- Whether a value of a template stands for a JSON value, from wherever it is, or is undefined for none. -/
def Stands (w : Option Json) (v : Value) : Prop :=
  match w with
  | none => v = .undefined
  | some w => ∃ root path, v = (Value.ofJson w).rooted root path

theorem equals_text (s k : String) (safe : Bool) : (Value.text s).equals (.string k safe) = (s == k) := rfl

theorem isAlike_text (s k : String) (safe : Bool) : (Value.text s).isAlike (.string k safe) = true := rfl

/-- A text among the keys of an object is found by the first that is equal: all texts have one mark. -/
theorem valueWhere_members (name : String) (root : Root) (path : List Nat) (n : Nat) (members : Members Json) :
    Stands (Members.get? members name)
      ((valueWhere (fun k => (Value.text name).equals k && (Value.text name).isAlike k)
        (rootedEntries root path n (ofJsonMembers members))).getD .undefined) := by
  induction members generalizing n with
  | nil => rfl
  | cons m members ih =>
      obtain ⟨k, v⟩ := m
      rw [ofJsonMembers, rootedEntries, valueWhere, Members.get?]
      simp only [Value.rooted, equals_text, isAlike_text, Bool.and_true, beq_iff_eq, eq_comm (a := name)]
      split
      · exact ⟨root, _, rfl⟩
      · exact ih (n + 2)

theorem entryWhere_eq_valueWhere (equal : Value → Bool) {alike : Value → Bool} {entries : List (Value × Value)}
    (h : ∀ e ∈ entries, alike e.1 = true) :
    entryWhere equal alike entries = valueWhere (fun k => equal k && alike k) entries := by
  unfold entryWhere
  split
  · -- A single key is not asked for its mark, which it has anyway.
    rename_i k v
    have hk : alike k = true := h (k, v) List.mem_cons_self
    simp [valueWhere, hk]
  · rfl

theorem isAlike_members (name : String) (root : Root) (path : List Nat) (n : Nat) (members : Members Json) :
    ∀ e ∈ rootedEntries root path n (ofJsonMembers members), (Value.text name).isAlike e.1 = true := by
  induction members generalizing n with
  | nil => exact List.forall_mem_nil _
  | cons m members ih => exact List.forall_mem_cons.mpr ⟨isAlike_text name m.1 false, ih (n + 2)⟩

/-- **Only an object has a member**, and it has the member that the JSON value has. -/
theorem stands_lookup? (w : Json) (root : Root) (path : List Nat) :
    Stands (w.member? name) ((((Value.ofJson w).rooted root path).lookup? (.text name)).getD .undefined) := by
  cases w with
  | null | bool _ | string _ | array _ => exact rfl
  | number n => cases n <;> exact rfl
  | object members =>
      have hentries := entryWhere_eq_valueWhere (Value.text name).equals (isAlike_members name root path 0 members)
      have hfirst := valueWhere_members name root path 0 members
      rw [← hentries] at hfirst
      exact hfirst

/-- What is undefined has no member. -/
theorem Stands.bind (h : Stands w v) (f : Value → Option Value) (hundefined : f .undefined = none)
    (hf : ∀ w root path, f ((Value.ofJson w).rooted root path)
      = ((Value.ofJson w).rooted root path).lookup? (.text name)) :
    Stands (w.bind fun x => x.member? name) ((f v).getD .undefined) := by
  cases w with
  | none =>
      obtain rfl : v = .undefined := h
      rw [hundefined]
      rfl
  | some w =>
      obtain ⟨root, path, rfl⟩ := h
      rw [hf]
      exact stands_lookup? w root path

/-- **A step with a point leads to a member.** -/
theorem Stands.attribute (h : Stands w v) (st : Store) (name : String) :
    Stands (w.bind fun x => x.member? name) ((st.attribute? v name).getD .undefined) := by
  refine h.bind (fun v => st.attribute? v name) rfl fun w root path => ?_
  cases w with
  | number n => cases n <;> rfl
  | null | bool _ | string _ | array _ | object _ => rfl

/-- **A step with brackets leads to a member.** Of a text or a sequence there is no item under a text. -/
theorem Stands.item (h : Stands w v) (st : Store) (name : String) :
    Stands (w.bind fun x => x.member? name) ((st.item? v (.text name)).getD .undefined) := by
  refine h.bind (fun v => st.item? v (.text name)) rfl fun w root path => ?_
  cases w with
  | number n => cases n <;> rfl
  | null | bool _ | string _ | array _ | object _ => rfl

/-! ## Evaluation -/

theorem walk?_concat (w : Json) (names : List String) (name : String) :
    w.walk? (names ++ [name]) = (w.walk? names).bind fun x => x.member? name := by
  rw [Json.walk?_append]
  congr 1
  funext x
  cases h : x.member? name <;> simp [Json.walk?, h]

theorem view_string (st : Store) (text : String) (safe : Bool) :
    st.view (.string text safe) = .string text safe := by
  unfold Store.view
  split
  · contradiction
  · split <;> rfl

/-- **A reference stands for what a walk by its names leads to**, if its root does for what the walk starts
from. No step fails, and none changes the store. -/
theorem evalExpr_refers (h : e.Refers root names) (hroot : Stands w ((st.lookup? s.vars root).getD .undefined)) :
    ∃ x, evalExpr s e st = .ok (x, st) ∧ Stands (w.bind fun y => y.walk? names) x := by
  induction h with
  | name line =>
      refine ⟨_, rfl, ?_⟩
      simpa using hroot
  | dotted _ name line ih =>
      obtain ⟨x, hx, hstands⟩ := ih
      refine ⟨(st.attribute? x name).getD .undefined, ?_, ?_⟩
      · rw [evalExpr, bind_of_ok hx]
      · simpa only [walk?_concat, Option.bind_assoc] using hstands.attribute st name
  | quoted _ key line line' ih =>
      obtain ⟨x, hx, hstands⟩ := ih
      refine ⟨(st.item? x (.text key)).getD .undefined, ?_, ?_⟩
      · rw [evalExpr, bind_of_ok hx]
        exact congrArg (fun k => Except.ok ((st.item? x k).getD .undefined, st)) (view_string st key false)
      · simpa only [walk?_concat, Option.bind_assoc] using hstands.item st key

end Stencil.Template
