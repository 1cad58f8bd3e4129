/-!
# Members

Named members in the order in which their names first appeared. Giving a member that exists a new
value leaves it where it is; a new name goes to the end.

Main statements: `insert` is seen by `get?` at its own name and nowhere else (`get?_insert`), it adds
at most one name (`keys_insert`), and names stay distinct (`nodup_keys_insert`).
-/

namespace Stencil

/-- Members by name, in order. -/
abbrev Members (α : Type) := List (String × α)

namespace Members

variable {α : Type}

/-- The names in order. -/
def keys (m : Members α) : List String := m.map Prod.fst

def get? (m : Members α) (name : String) : Option α :=
  match m with
  | [] => none
  | (k, v) :: rest => if k = name then some v else get? rest name

/-- Gives a member a value: in its place when the name exists, at the end otherwise. -/
def insert (m : Members α) (name : String) (value : α) : Members α :=
  match m with
  | [] => [(name, value)]
  | (k, v) :: rest => if k = name then (k, value) :: rest else (k, v) :: insert rest name value

/-- Inserts entries one after the other. -/
def insertAll (m : Members α) (entries : List (String × α)) : Members α :=
  entries.foldl (fun m e => insert m e.1 e.2) m

/-- The members that entries leave behind when they are inserted in order. -/
def ofEntries (entries : List (String × α)) : Members α := insertAll [] entries

/-! ## Laws -/

@[simp] theorem get?_nil (name : String) : get? ([] : Members α) name = none := rfl

@[simp] theorem keys_nil : keys ([] : Members α) = [] := rfl

@[simp] theorem keys_cons (e : String × α) (m : Members α) : keys (e :: m) = e.1 :: keys m := rfl

/-- **What an insertion changes**: the member of that name. -/
theorem get?_insert (m : Members α) (a b : String) (v : α) :
    get? (insert m a v) b = if a = b then some v else get? m b := by
  induction m with
  | nil => simp [insert, get?]
  | cons e m ih =>
      obtain ⟨k, w⟩ := e
      by_cases hk : k = a
      · subst hk; by_cases hb : k = b <;> simp [insert, get?, hb]
      · by_cases hb : k = b
        · subst hb; simp [insert, get?, hk, Ne.symm hk]
        · simp [insert, get?, hk, hb, ih]

/-- **Which names there are after an insertion**: an existing name keeps its place. -/
theorem keys_insert (m : Members α) (a : String) (v : α) :
    keys (insert m a v) = if a ∈ keys m then keys m else keys m ++ [a] := by
  induction m with
  | nil => simp [insert]
  | cons e m ih =>
      obtain ⟨k, w⟩ := e
      by_cases hk : k = a
      · simp [insert, hk]
      · by_cases hm : a ∈ keys m <;> simp [insert, hk, ih, hm, Ne.symm hk]

/-- **Names stay distinct.** -/
theorem nodup_keys_insert {m : Members α} (h : (keys m).Nodup) (a : String) (v : α) :
    (keys (insert m a v)).Nodup := by
  rw [keys_insert]
  split
  · exact h
  · rename_i hm
    rw [List.nodup_append]
    refine ⟨h, by simp, ?_⟩
    intro x hx y hy e
    simp at hy
    exact hm (by rw [← hy, ← e]; exact hx)

theorem insert_ne_nil (m : Members α) (a : String) (v : α) : insert m a v ≠ [] := by
  cases m with
  | nil => simp [insert]
  | cons e m => simp only [insert]; split <;> simp

theorem get?_eq_none_iff {m : Members α} {a : String} : get? m a = none ↔ a ∉ keys m := by
  induction m with
  | nil => simp
  | cons e m ih =>
      by_cases h : e.1 = a
      · simp [get?, h]
      · simp [get?, h, ih, Ne.symm h]

end Members

end Stencil
