import Stencil.Template.Constant

/-!
# Values without marks

A value is unmarked when no text in it is marked as safe, however deep it stands. What variables hold is
unmarked, and what accesses, slices and operators make of unmarked values is unmarked again: none of them
marks a text.

Main statements: `ofVariable_unmarked`, `slice_unmarked` and `applyOperator_unmarked`.
-/

namespace Stencil.Template

mutual

/-- Whether no text in a value is marked as safe. -/
def Value.Unmarked : Value → Prop
  | .string _ safe => safe = false
  | .list items _ | .iterator items _ _ => UnmarkedItems items
  | .group key items _ => key.Unmarked ∧ UnmarkedItems items
  | .map entries _ | .keywords entries => UnmarkedEntries entries
  | .overlay entries layers _ => UnmarkedEntries entries ∧ UnmarkedLayers layers
  | .record _ fields _ => UnmarkedFields fields
  | _ => True

/-- Whether no text in some items is marked. -/
def UnmarkedItems : List Value → Prop
  | [] => True
  | v :: vs => v.Unmarked ∧ UnmarkedItems vs

/-- Whether no text in some entries is marked. -/
def UnmarkedEntries : List (Value × Value) → Prop
  | [] => True
  | (k, v) :: es => k.Unmarked ∧ v.Unmarked ∧ UnmarkedEntries es

/-- Whether no text in some layers is marked. -/
def UnmarkedLayers : List (List (Value × Value)) → Prop
  | [] => True
  | es :: layers => UnmarkedEntries es ∧ UnmarkedLayers layers

/-- Whether no text in some fields is marked. -/
def UnmarkedFields : List (String × Value) → Prop
  | [] => True
  | (_, v) :: fields => v.Unmarked ∧ UnmarkedFields fields

end

def UnmarkedAny (v? : Option Value) : Prop := ∀ v ∈ v?, v.Unmarked

/-! ## Lists of values -/

theorem unmarkedItems_iff {vs : List Value} : UnmarkedItems vs ↔ ∀ v ∈ vs, v.Unmarked := by
  induction vs with
  | nil => simp [UnmarkedItems]
  | cons v vs ih => simp [UnmarkedItems, ih]

theorem unmarkedEntries_iff {es : List (Value × Value)} :
    UnmarkedEntries es ↔ ∀ e ∈ es, e.1.Unmarked ∧ e.2.Unmarked := by
  induction es with
  | nil => simp [UnmarkedEntries]
  | cons e es ih => simp [UnmarkedEntries, ih, and_assoc]

theorem unmarkedLayers_iff {layers : List (List (Value × Value))} :
    UnmarkedLayers layers ↔ ∀ es ∈ layers, UnmarkedEntries es := by
  induction layers with
  | nil => simp [UnmarkedLayers]
  | cons es layers ih => simp [UnmarkedLayers, ih]

theorem unmarkedFields_iff {fields : List (String × Value)} :
    UnmarkedFields fields ↔ ∀ f ∈ fields, f.2.Unmarked := by
  induction fields with
  | nil => simp [UnmarkedFields]
  | cons f fields ih => simp [UnmarkedFields, ih]

theorem UnmarkedItems.subset {vs ws : List Value} (h : UnmarkedItems ws) (hs : vs ⊆ ws) :
    UnmarkedItems vs :=
  unmarkedItems_iff.mpr fun v hv => unmarkedItems_iff.mp h v (hs hv)

theorem UnmarkedItems.append {vs ws : List Value} (hv : UnmarkedItems vs) (hw : UnmarkedItems ws) :
    UnmarkedItems (vs ++ ws) :=
  unmarkedItems_iff.mpr
    (List.forall_mem_append.mpr ⟨unmarkedItems_iff.mp hv, unmarkedItems_iff.mp hw⟩)

theorem UnmarkedItems.getElem? {vs : List Value} (h : UnmarkedItems vs) (n : Nat) :
    UnmarkedAny vs[n]? :=
  fun v hv => unmarkedItems_iff.mp h v (List.mem_of_getElem? hv)

theorem UnmarkedAny.getD {v? : Option Value} {w : Value} (h : UnmarkedAny v?) (hw : w.Unmarked) :
    (v?.getD w).Unmarked := by
  cases v? with
  | none => exact hw
  | some v => exact h v rfl

theorem unmarkedAny_none : UnmarkedAny none := fun v h => by contradiction

/-- The texts of characters, each by itself. -/
theorem unmarkedItems_map_chars {α : Type} (f : α → List Char) (xs : List α) :
    UnmarkedItems (xs.map fun x => .chars (f x)) := by
  refine unmarkedItems_iff.mpr fun v hv => ?_
  obtain ⟨x, -, rfl⟩ := List.mem_map.mp hv
  rfl

theorem unmarkedItems_replicate {vs : List Value} (h : UnmarkedItems vs) (n : Nat) :
    UnmarkedItems (List.replicate n vs).flatten := by
  refine h.subset fun v hv => ?_
  obtain ⟨ws, hws, hv⟩ := List.mem_flatten.mp hv
  exact List.eq_of_mem_replicate hws ▸ hv

/-! ## Variables -/

mutual

theorem rooted_unmarked (root : Root) :
    ∀ (v : Value) (path : List Nat), v.Unmarked → (v.rooted root path).Unmarked
  | .list items none, path, h => rootedItems_unmarked root items path 0 h
  | .iterator items _ none, path, h => rootedItems_unmarked root items path 0 h
  | .map entries none, path, h => rootedEntries_unmarked root entries path 0 h
  | .group key items none, path, h =>
      ⟨rooted_unmarked root key (0 :: path) h.1, rootedItems_unmarked root items path 1 h.2⟩
  | .overlay _ _ none, _, h | .record _ _ none, _, h => h
  | .list _ (some _), _, h | .iterator _ _ (some _), _, h | .map _ (some _), _, h
  | .overlay _ _ (some _), _, h | .group _ _ (some _), _, h | .record _ _ (some _), _, h => h
  | .string _ _, _, h | .keywords _, _, h => h
  | .undefined, _, _ | .none, _, _ | .bool _, _, _ | .int _, _, _ | .float _, _, _
  | .routine _, _, _ | .function _, _, _ | .loop _, _, _ | .space _, _, _ => trivial

theorem rootedItems_unmarked (root : Root) :
    ∀ (vs : List Value) (path : List Nat) (n : Nat), UnmarkedItems vs →
      UnmarkedItems (rootedItems root path n vs)
  | [], _, _, _ => trivial
  | v :: vs, path, n, h =>
      ⟨rooted_unmarked root v (n :: path) h.1, rootedItems_unmarked root vs path (n + 1) h.2⟩

theorem rootedEntries_unmarked (root : Root) :
    ∀ (es : List (Value × Value)) (path : List Nat) (n : Nat), UnmarkedEntries es →
      UnmarkedEntries (rootedEntries root path n es)
  | [], _, _, _ => trivial
  | (k, v) :: es, path, n, h =>
      ⟨rooted_unmarked root k (n :: path) h.1, rooted_unmarked root v ((n + 1) :: path) h.2.1,
        rootedEntries_unmarked root es path (n + 2) h.2.2⟩

end

theorem ofNumber_unmarked (n : Number) : (Value.ofNumber n).Unmarked := by
  cases n <;> exact trivial

mutual

theorem ofJson_unmarked : ∀ v : Json, (Value.ofJson v).Unmarked
  | .null | .bool _ => trivial
  | .number n => ofNumber_unmarked n
  | .string _ => rfl
  | .array items => ofJsonItems_unmarked items
  | .object members => ofJsonMembers_unmarked members

theorem ofJsonItems_unmarked : ∀ vs : List Json, UnmarkedItems (ofJsonItems vs)
  | [] => trivial
  | v :: vs => ⟨ofJson_unmarked v, ofJsonItems_unmarked vs⟩

theorem ofJsonMembers_unmarked : ∀ ms : List (String × Json), UnmarkedEntries (ofJsonMembers ms)
  | [] => trivial
  | (_, v) :: ms => ⟨rfl, ofJson_unmarked v, ofJsonMembers_unmarked ms⟩

end

/-- **What a variable holds is unmarked.** -/
theorem ofVariable_unmarked (name : String) (v : Json) : (Value.ofVariable name v).Unmarked :=
  rooted_unmarked (.given name) _ [] (ofJson_unmarked v)

/-! ## Parts -/

variable {v w : Value}

theorem entriesOfFields_unmarked {fields : List (String × Value)} (h : UnmarkedFields fields) :
    UnmarkedEntries (entriesOfFields fields) := by
  refine unmarkedEntries_iff.mpr fun e he => ?_
  obtain ⟨f, hf, rfl⟩ := List.mem_map.mp he
  exact ⟨rfl, unmarkedFields_iff.mp h f hf⟩

theorem routineFields_unmarked (r : Routine) : UnmarkedFields r.fields := by
  have hparams : UnmarkedItems (r.params.map Value.text) := by
    refine unmarkedItems_iff.mpr fun v hv => ?_
    obtain ⟨s, -, rfl⟩ := List.mem_map.mp hv
    rfl
  exact ⟨rfl, hparams, trivial, trivial⟩

theorem entries?_unmarked (h : v.Unmarked) {es : List (Value × Value)} (he : v.entries? = some es) :
    UnmarkedEntries es := by
  cases v with
  | map | keywords => exact Option.some.inj he ▸ h
  | overlay => exact Option.some.inj he ▸ h.1
  | record => exact Option.some.inj he ▸ entriesOfFields_unmarked h
  | routine r => exact Option.some.inj he ▸ entriesOfFields_unmarked (routineFields_unmarked r)
  | loop | space => exact Option.some.inj he ▸ trivial
  | _ => contradiction

theorem items?_unmarked (h : v.Unmarked) {vs : List Value} (hv : v.items? = some vs) :
    UnmarkedItems vs := by
  cases v with
  | list | iterator => exact Option.some.inj hv ▸ h
  | group => exact Option.some.inj hv ▸ ⟨h.1, h.2, trivial⟩
  | _ => contradiction

theorem keys_unmarked {es : List (Value × Value)} (h : UnmarkedEntries es) :
    UnmarkedItems (es.map Prod.fst) := by
  refine unmarkedItems_iff.mpr fun k hk => ?_
  obtain ⟨e, he, rfl⟩ := List.mem_map.mp hk
  exact (unmarkedEntries_iff.mp h e he).1

/-- **What an unmarked value is gone through by is unmarked.** -/
theorem iterate?_unmarked (h : v.Unmarked) {vs : List Value} (hv : v.iterate? = some vs) :
    UnmarkedItems vs := by
  unfold Value.iterate? at hv
  split at hv
  · exact Option.some.inj hv ▸ trivial
  · exact Option.some.inj hv ▸ trivial
  · exact Option.some.inj hv ▸ unmarkedItems_map_chars (fun c => [c]) _
  · contradiction
  · split at hv
    · rename_i items hi
      exact Option.some.inj hv ▸ items?_unmarked h hi
    · obtain ⟨es, he, rfl⟩ := Option.map_eq_some_iff.mp hv
      exact keys_unmarked (entries?_unmarked h he)

/-! ## Members -/

theorem valueWhere_unmarked (p : Value → Bool) {es : List (Value × Value)}
    (h : UnmarkedEntries es) : UnmarkedAny (valueWhere p es) := by
  induction es with
  | nil => exact unmarkedAny_none
  | cons e es ih =>
      unfold valueWhere
      split
      · exact fun w hw => Option.some.inj hw ▸ h.2.1
      · exact ih h.2.2

theorem entryWhere_unmarked (equal alike : Value → Bool) {es : List (Value × Value)}
    (h : UnmarkedEntries es) : UnmarkedAny (entryWhere equal alike es) := by
  unfold entryWhere
  split
  · split
    · exact fun w hw => Option.some.inj hw ▸ h.2.1
    · exact unmarkedAny_none
  · exact valueWhere_unmarked _ h

theorem layerWhere_unmarked (equal alike : Value → Bool) {layers : List (List (Value × Value))}
    (h : UnmarkedLayers layers) : UnmarkedAny (layerWhere equal alike layers) := by
  intro w hw
  obtain ⟨es, hes, hfound⟩ := List.exists_of_findSome?_eq_some hw
  have hentries := unmarkedLayers_iff.mp h es (List.mem_reverse.mp hes)
  exact entryWhere_unmarked equal alike hentries w (Option.filter_eq_some_iff.mp hfound).1

theorem memberWhere_unmarked (equal alike : Value → Bool) (h : v.Unmarked) :
    UnmarkedAny (v.memberWhere equal alike) := by
  unfold Value.memberWhere
  split
  · exact layerWhere_unmarked equal alike h.2
  · intro w hw
    obtain ⟨es, he, hw⟩ := Option.bind_eq_some_iff.mp hw
    exact entryWhere_unmarked equal alike (entries?_unmarked h he) w hw

/-- An attribute of an unmarked value is unmarked. -/
theorem attribute?_unmarked (h : v.Unmarked) (name : String) : UnmarkedAny (v.attribute? name) := by
  unfold Value.attribute?
  split
  · split
    · exact fun w hw => Option.some.inj hw ▸ h.1
    · split
      · exact fun w hw => Option.some.inj hw ▸ h.2
      · exact unmarkedAny_none
  · exact memberWhere_unmarked _ _ h

theorem itemAt?_unmarked {vs : List Value} (h : UnmarkedItems vs) (i : Int) :
    UnmarkedAny (itemAt? vs i) := by
  intro w hw
  obtain ⟨n, -, hn⟩ := Option.bind_eq_some_iff.mp hw
  exact h.getElem? n w hn

theorem extentItem?_unmarked {vs : List Value} (h : UnmarkedItems vs) (extent : Extent) (i : Int) :
    UnmarkedAny (extent.item? vs i) := by
  unfold Extent.item?
  split
  · exact itemAt?_unmarked h i
  · intro w hw
    obtain ⟨n, -, hn⟩ := Option.bind_eq_some_iff.mp hw
    exact h.getElem? _ w hn
  · split
    · exact unmarkedAny_none
    · exact itemAt?_unmarked h i

theorem unmarkedAny_bind {α : Type} {x : Option α} {f : α → Option Value}
    (h : ∀ a, UnmarkedAny (f a)) : UnmarkedAny (x.bind f) := by
  cases x with
  | none => exact unmarkedAny_none
  | some a => exact h a

/-- An item of an unmarked value is unmarked. -/
theorem item?_unmarked (h : v.Unmarked) (key : Value) : UnmarkedAny (v.item? key) := by
  unfold Value.item?
  split
  · refine unmarkedAny_bind fun i w hw => ?_
    obtain ⟨c, -, rfl⟩ := Option.map_eq_some_iff.mp hw
    rfl
  · split
    · exact attribute?_unmarked h _
    · exact unmarkedAny_bind fun i => itemAt?_unmarked (items?_unmarked h rfl) i
  · exact unmarkedAny_bind fun i => itemAt?_unmarked h i
  · exact unmarkedAny_bind fun i => extentItem?_unmarked h _ i
  · exact memberWhere_unmarked _ _ h

/-! ## Slices -/

theorem everyNth_subset {α : Type} (step n : Nat) (xs : List α) : everyNth step n xs ⊆ xs := by
  induction xs generalizing n with
  | nil => simp [everyNth]
  | cons x xs ih =>
      cases n with
      | zero => exact List.cons_subset_cons x (ih _)
      | succ n => exact List.subset_cons_of_subset x (ih n)

theorem forwardSlice_subset {α : Type} (bounds : Nat × Nat) (step : Nat) (xs : List α) :
    forwardSlice bounds step xs ⊆ xs :=
  List.Subset.trans (everyNth_subset step 0 _)
    (List.Subset.trans (List.take_subset _ _) (List.drop_subset _ _))

theorem backwardSlice_subset {α : Type} (start stop : Option Int) (step : Nat) (xs : List α) :
    backwardSlice start stop step xs ⊆ xs := by
  unfold backwardSlice
  dsimp only
  refine List.Subset.trans (List.take_subset _ _) (List.Subset.trans (everyNth_subset step 0 _) ?_)
  rw [List.reverse_subset]
  exact List.Subset.trans (List.drop_subset _ _) (List.take_subset _ _)

theorem sliceItems_unmarked {vs : List Value} (h : UnmarkedItems vs) (extent : Extent)
    (start stop : Option Int) (step : Int) : (sliceItems extent vs start stop step).Unmarked := by
  unfold sliceItems
  split
  · split
    · refine unmarkedItems_iff.mpr fun w hw => ?_
      obtain ⟨k, -, hk⟩ := List.mem_filterMap.mp hw
      exact h.getElem? _ w hk
    · exact h.subset (forwardSlice_subset _ _ vs)
  · exact h.subset (backwardSlice_subset _ _ _ vs)

/-- Whether an operation that may fail makes nothing but what is unmarked. -/
def UnmarkedResult (r : Except Cause Value) : Prop := ∀ v, r = .ok v → v.Unmarked

theorem unmarkedResult_ok (h : v.Unmarked) : UnmarkedResult (.ok v) :=
  fun _ hw => Except.ok.inj hw ▸ h

theorem unmarkedResult_error (c : Cause) : UnmarkedResult (.error c) := fun v h => by contradiction

theorem UnmarkedResult.bind {α : Type} {x : Except Cause α} {f : α → Except Cause Value}
    (h : ∀ a, UnmarkedResult (f a)) : UnmarkedResult (x >>= f) := by
  cases x with
  | error c => exact unmarkedResult_error c
  | ok a => exact h a

theorem UnmarkedResult.map {α : Type} {x : Except Cause α} {f : α → Value}
    (h : ∀ a, (f a).Unmarked) : UnmarkedResult (x.map f) := by
  cases x with
  | error c => exact unmarkedResult_error c
  | ok a => exact unmarkedResult_ok (h a)

/-- **A slice of an unmarked value is unmarked.** -/
theorem slice_unmarked (h : v.Unmarked) (start stop step : Value) :
    UnmarkedResult (v.slice start stop step) := by
  unfold Value.slice
  refine .bind fun start => .bind fun stop => .bind fun step => ?_
  dsimp only
  split
  · exact unmarkedResult_error _
  · split
    · exact unmarkedResult_ok rfl
    · exact unmarkedResult_ok trivial
    · exact unmarkedResult_ok trivial
    · split
      · rename_i items hi
        exact unmarkedResult_ok (sliceItems_unmarked (items?_unmarked h hi) _ _ _ _)
      · exact unmarkedResult_error _

/-! ## Operators -/

theorem wordResult_unmarked (n : Int) : UnmarkedResult (wordResult n) := by
  unfold wordResult
  split
  · exact unmarkedResult_ok trivial
  · exact unmarkedResult_error _

theorem joinedItems_unmarked {vs ws : List Value} (hv : UnmarkedItems vs) (hw : UnmarkedItems ws)
    (a b : Value) : (joinedItems a b vs ws).Unmarked := by
  unfold joinedItems
  split
  · split <;> exact hv.append hw
  · exact hv.append hw

theorem add_unmarked (hv : v.Unmarked) (hw : w.Unmarked) : UnmarkedResult (add v w) := by
  unfold add
  split
  · rename_i xs ys hx hy
    exact unmarkedResult_ok (joinedItems_unmarked (items?_unmarked hv hx) (items?_unmarked hw hy) v w)
  · split
    · exact unmarkedResult_ok rfl
    · split
      · exact wordResult_unmarked _
      · exact unmarkedResult_ok trivial
      · exact unmarkedResult_error _

theorem repeatText_unmarked (s : String) (times : Value) : UnmarkedResult (repeatText s times) := by
  unfold repeatText
  repeat' split
  all_goals first | exact unmarkedResult_error _ | exact unmarkedResult_ok rfl

theorem repeatItems_unmarked {vs : List Value} (h : UnmarkedItems vs) (sequence times : Value) :
    UnmarkedResult (repeatItems sequence vs times) := by
  unfold repeatItems
  split
  · refine unmarkedResult_ok ?_
    unfold repeatedItems
    repeat' split
    · exact trivial
    · exact unmarkedItems_replicate h _
    · exact unmarkedItems_replicate h _
  · exact unmarkedResult_error _

theorem multiply_unmarked (hv : v.Unmarked) (hw : w.Unmarked) : UnmarkedResult (multiply v w) := by
  unfold multiply
  split
  · exact repeatText_unmarked _ _
  · exact repeatText_unmarked _ _
  · rename_i hi
    exact repeatItems_unmarked (items?_unmarked hv hi) _ _
  · rename_i hi
    exact repeatItems_unmarked (items?_unmarked hw hi) _ _
  · split
    · exact wordResult_unmarked _
    · exact unmarkedResult_ok trivial
    · exact unmarkedResult_error _

/-- **What an operator makes of unmarked values is unmarked.** -/
theorem applyOperator_unmarked (op : BinaryOp) (hv : v.Unmarked) (hw : w.Unmarked) :
    UnmarkedResult (applyOperator op v w) := by
  cases op with
  | or => refine unmarkedResult_ok ?_; split <;> assumption
  | and =>
      refine unmarkedResult_ok ?_
      split
      · exact hw
      · exact trivial
  | add => exact add_unmarked hv hw
  | concat => exact unmarkedResult_ok rfl
  | multiply => exact multiply_unmarked hv hw
  | subtract | divide | floorDivide | remainder | power =>
      -- These make numbers only.
      simp only [applyOperator, subtract, divide, floorDivide, remainder, power, intPower]
      repeat' split
      all_goals
        first
        | exact wordResult_unmarked _
        | exact unmarkedResult_ok trivial
        | exact unmarkedResult_error _

theorem negate_unmarked (v : Value) : UnmarkedResult (negate v) := by
  unfold negate
  repeat' split
  all_goals
    first
    | exact wordResult_unmarked _
    | exact unmarkedResult_ok trivial
    | exact unmarkedResult_error _

/-! ## Entries -/

theorem pairedEntries_unmarked : ∀ {vs : List Value}, UnmarkedItems vs →
    UnmarkedEntries (pairedEntries vs)
  | [], _ | [_], _ => trivial
  | _ :: _ :: _, ⟨hk, hv, h⟩ => ⟨hk, hv, pairedEntries_unmarked h⟩

theorem insertEntry_unmarked {es : List (Value × Value)} (h : UnmarkedEntries es)
    (hk : v.Unmarked) (hv : w.Unmarked) : UnmarkedEntries (insertEntry es v w) := by
  have hall := unmarkedEntries_iff.mp h
  refine unmarkedEntries_iff.mpr ?_
  unfold insertEntry
  split
  · refine List.forall_mem_map.mpr fun e he => ?_
    split
    · exact ⟨(hall e he).1, hv⟩
    · exact hall e he
  · exact List.forall_mem_append.mpr ⟨hall, List.forall_mem_singleton.mpr ⟨hk, hv⟩⟩

/-- **The entries of a mapping that is made of unmarked ones are unmarked.** -/
theorem distinctEntries_unmarked {es : List (Value × Value)} (h : UnmarkedEntries es) :
    UnmarkedEntries (distinctEntries es) := by
  have hfold : ∀ (es made : List (Value × Value)), UnmarkedEntries made → UnmarkedEntries es →
      UnmarkedEntries (es.foldl (fun made e => insertEntry made e.1 e.2) made) := by
    intro es
    induction es with
    | nil => exact fun made hm _ => hm
    | cons e es ih => exact fun made hm he => ih _ (insertEntry_unmarked hm he.1 he.2.1) he.2.2
  exact hfold es [] trivial h

end Stencil.Template
