import Stencil.Proofs.Preserves
import Stencil.Proofs.Template.Unmarked
import Stencil.Template.Filter

/-!
# Filters that mark nothing

The plain filters make unmarked values of unmarked values. Some of them would mark their result where one
of the values was marked before; so the arguments are followed through the readers, which take unmarked
values only and leave such values.

Main statement: `apply_unmarked`.
-/

namespace Stencil.Template

theorem iterateOr_unmarked {v : Value} (h : v.Unmarked) {vs : List Value}
    (hv : v.iterateOr = .ok vs) : UnmarkedItems vs := by
  unfold Value.iterateOr at hv
  split at hv
  · rename_i ws hws
    cases hv
    exact iterate?_unmarked h hws
  · contradiction

/-! ## Taking arguments -/

namespace Take

variable {α : Type} {Q : α → Prop}

/-- Whether a reader of unmarked arguments leaves such arguments, and returns only what meets a
condition. -/
abbrev Keeps (reader : Take α) (Q : α → Prop) : Prop := Preserves UnmarkedItems reader Q

theorem of_map_ok {result : Except Cause α} {args left : List Value} {x : α}
    (h : result.map (·, args) = .ok (x, left)) : result = .ok x ∧ left = args := by
  cases result with
  | error c => contradiction
  | ok y =>
      obtain ⟨rfl, rfl⟩ := Prod.mk.inj (Except.ok.inj h)
      exact ⟨rfl, rfl⟩

theorem keeps_finish {result : Except Cause α} (h : ∀ x, result = .ok x → Q x) :
    Keeps (finish result) Q := by
  intro args hargs x left hx
  obtain ⟨hr, rfl⟩ := of_map_ok hx
  exact ⟨h x hr, hargs⟩

theorem keeps_invalid : Keeps (invalid : Take α) Q := keeps_finish fun x hx => by contradiction

theorem keeps_one {convert : Conversion α} (hnone : ∀ x, convert none = .ok x → Q x)
    (hsome : ∀ v : Value, v.Unmarked → ∀ x, convert (some v) = .ok x → Q x) :
    Keeps (one convert) Q := by
  intro args hargs x left hx
  cases args with
  | nil =>
      obtain ⟨hr, rfl⟩ := of_map_ok hx
      exact ⟨hnone x hr, hargs⟩
  | cons v vs =>
      obtain ⟨hr, rfl⟩ := of_map_ok hx
      exact ⟨hsome v hargs.1 x hr, hargs.2⟩

/-- An argument of which nothing is asked. -/
theorem keeps_any {convert : Conversion α} : Keeps (one convert) fun _ => True :=
  keeps_one (fun _ _ => trivial) fun _ _ _ _ => trivial

theorem keeps_required {convert : Value → Option α}
    (h : ∀ v : Value, v.Unmarked → ∀ x, convert v = some x → Q x) :
    Keeps (one (.required convert)) Q := by
  refine keeps_one (fun x hx => by contradiction) fun v hv x hx => ?_
  unfold Conversion.required at hx
  dsimp only at hx
  split at hx
  · rename_i y hy
    cases hx
    exact h v hv _ hy
  · contradiction

theorem keeps_optional {convert : Value → Option α}
    (h : ∀ v : Value, v.Unmarked → ∀ x, convert v = some x → Q x) :
    Keeps (one (.optional convert)) fun x? => ∀ x ∈ x?, Q x := by
  refine keeps_one (fun x? hx => ?_) fun v hv x? hx => ?_
  · cases hx
    exact fun x hx => by contradiction
  · unfold Conversion.optional Conversion.required at hx
    dsimp only at hx
    split at hx
    · cases hx
      exact fun x hx => by contradiction
    · split at hx
      · rename_i y hy
        cases hx
        exact fun x hx => Option.some.inj hx ▸ h v hv y hy
      · contradiction

theorem keeps_value : Keeps value Value.Unmarked :=
  keeps_required fun _ hv _ hx => Option.some.inj hx ▸ hv

theorem keeps_value? : Keeps value? UnmarkedAny :=
  keeps_optional fun _ hv _ hx => Option.some.inj hx ▸ hv

theorem keeps_textual : Keeps Filter.textual Value.Unmarked := by
  refine keeps_required fun v hv x hx => ?_
  obtain ⟨s, -, rfl⟩ := Option.map_eq_some_iff.mp hx
  exact hv

theorem keeps_textual? : Keeps Filter.textual? UnmarkedAny := by
  refine keeps_optional fun v hv x hx => ?_
  obtain ⟨s, -, rfl⟩ := Option.map_eq_some_iff.mp hx
  exact hv

theorem keeps_done : Keeps done fun _ => True := by
  intro args h x left hx
  unfold done at hx
  split at hx
  · cases hx
    exact ⟨trivial, trivial⟩
  · contradiction

theorem keeps_items {v : Value} (h : v.Unmarked) : Keeps (items v) UnmarkedItems :=
  keeps_finish fun _ hvs => iterateOr_unmarked h hvs

/-- **A reader that is run on unmarked arguments** returns only what its condition allows. -/
theorem of_run {reader : Take α} (h : Keeps reader Q) {args : List Value} (hargs : UnmarkedItems args)
    {x : α} (hx : reader.run args = .ok x) : Q x := by
  unfold run at hx
  split at hx
  · rename_i y left hy
    cases hx
    exact (h args hargs _ _ hy).1
  · contradiction

end Take

namespace Filter

open Take

variable {v : Value}

/-! ## Marks -/

theorem isSafe_eq_false (h : v.Unmarked) : v.isSafe = false := by
  cases v with
  | string => exact h
  | _ => rfl

theorem combinesSafely_eq_false (mode : EscapeMode) {vs : List Value} (h : UnmarkedItems vs) :
    combinesSafely mode vs = false := by
  have hany : vs.any Value.isSafe = false :=
    List.any_eq_false.mpr fun v hv => by simp [isSafe_eq_false (unmarkedItems_iff.mp h v hv)]
  simp [combinesSafely, hany]

theorem joined_unmarked (mode : EscapeMode) {joiner : Value} (hj : joiner.Unmarked)
    {items : List Value} (h : UnmarkedItems items) : UnmarkedResult (joined mode joiner items) := by
  have hplain : combinesSafely mode (joiner :: items) = false := combinesSafely_eq_false mode ⟨hj, h⟩
  unfold joined
  rw [hplain]
  exact unmarkedResult_ok rfl

theorem withFallback_unmarked (h : v.Unmarked) {fallback : Option Value} (hf : UnmarkedAny fallback)
    (evenFalse : Bool) : (withFallback v fallback evenFalse).Unmarked := by
  unfold withFallback
  split
  · exact hf.getD rfl
  · exact h

/-! ## The plain filters -/

theorem keeps_changing (f : List Char → List Char) : Keeps (changing f) Value.Unmarked := by
  have hmapped : Keeps (one (.required (mapped f))) Value.Unmarked := by
    refine keeps_required fun v hv x hx => ?_
    obtain ⟨s, -, rfl⟩ := Option.map_eq_some_iff.mp hx
    exact isSafe_eq_false hv
  exact hmapped.bind fun v hv => keeps_done.bind fun _ _ => .pure hv

theorem keeps_title : Keeps title Value.Unmarked := by
  have htext : Keeps anyText fun _ => True := keeps_any
  exact htext.bind fun s _ => keeps_done.bind fun _ _ => .pure rfl

theorem keeps_trim : Keeps trim Value.Unmarked := by
  have hset : Keeps anyText? fun _ => True := keeps_any
  refine keeps_value.bind fun v hv => ?_
  split
  · exact keeps_invalid
  · exact hset.bind fun set _ => keeps_done.bind fun _ _ => .pure (isSafe_eq_false hv)

theorem keeps_replace (mode : EscapeMode) : Keeps (replace mode) Value.Unmarked := by
  refine keeps_textual.bind fun v hv => keeps_textual.bind fun old hold => ?_
  refine keeps_textual.bind fun new hnew => keeps_done.bind fun _ _ => ?_
  have hplain : combinesSafely mode [v, old, new] = false :=
    combinesSafely_eq_false mode ⟨hv, hold, hnew, trivial⟩
  -- So the text that is escaped and marked is never made.
  rw [hplain]
  exact .pure rfl

theorem keeps_length : Keeps length Value.Unmarked := by
  refine keeps_value.bind fun v hv => keeps_done.bind fun _ _ => ?_
  split
  · exact .pure trivial
  · exact keeps_invalid

theorem keeps_join (mode : EscapeMode) : Keeps (join mode) Value.Unmarked := by
  refine keeps_value.bind fun v hv => keeps_textual?.bind fun joiner hj => ?_
  refine keeps_done.bind fun _ _ => (keeps_items hv).bind fun items hitems => ?_
  have hjoiner : (joiner.getD (.text "")).Unmarked := hj.getD rfl
  exact keeps_finish (joined_unmarked mode hjoiner hitems)

theorem keeps_default : Keeps default Value.Unmarked := by
  have hflag : Keeps bool? fun _ => True := keeps_any
  refine keeps_value.bind fun v hv => keeps_value?.bind fun fallback hf => ?_
  exact hflag.bind fun evenFalse _ => keeps_done.bind fun _ _ =>
    .pure (withFallback_unmarked hv hf _)

theorem keeps_newline : Keeps newline Value.Unmarked :=
  keeps_value.bind fun _ _ => keeps_done.bind fun _ _ => .pure rfl

/-! ## Applying a filter -/

/-- The filters of plain templates. -/
def plainNames : List String :=
  ["upper", "lower", "title", "capitalize", "trim", "join", "length", "replace", "default", "d", "nl"]

/-- There is a filter of each of the plain names, and it marks nothing. -/
theorem simple?_keeps (mode : EscapeMode) {name : String} (h : name ∈ plainNames) :
    ∃ reader, simple? mode name = some reader ∧ Keeps reader Value.Unmarked := by
  simp only [plainNames, List.mem_cons, List.not_mem_nil, or_false] at h
  rcases h with rfl | rfl | rfl | rfl | rfl | rfl | rfl | rfl | rfl | rfl | rfl
  · exact ⟨_, rfl, keeps_changing _⟩
  · exact ⟨_, rfl, keeps_changing _⟩
  · exact ⟨_, rfl, keeps_title⟩
  · exact ⟨_, rfl, keeps_changing _⟩
  · exact ⟨_, rfl, keeps_trim⟩
  · exact ⟨_, rfl, keeps_join mode⟩
  · exact ⟨_, rfl, keeps_length⟩
  · exact ⟨_, rfl, keeps_replace mode⟩
  · exact ⟨_, rfl, keeps_default⟩
  · exact ⟨_, rfl, keeps_default⟩
  · exact ⟨_, rfl, keeps_newline⟩

/-- A filter that applies no other is applied by itself. -/
theorem apply_eq_map (mode : EscapeMode) {name : String} (h : name ∉ higherNames)
    (args : List Value) : apply mode name args = (simple? mode name).map (run · args) := by
  simp only [higherNames, List.mem_cons, List.not_mem_nil, or_false, not_or] at h
  obtain ⟨hmap, hselect, hreject, hselectattr, hrejectattr⟩ := h
  unfold apply applyWithin
  split <;> first | contradiction | rfl

/-- **A plain filter makes unmarked values of unmarked values.** -/
theorem apply_unmarked (mode : EscapeMode) {name : String} (hname : name ∈ plainNames)
    {args : List Value} (h : UnmarkedItems args) {result : Except Cause Value}
    (hr : apply mode name args = some result) : UnmarkedResult result := by
  have hhigher : name ∉ higherNames := fun hh =>
    (by decide : ∀ n ∈ plainNames, n ∉ higherNames) name hname hh
  obtain ⟨reader, hreader, hkeeps⟩ := simple?_keeps mode hname
  rw [apply_eq_map mode hhigher, hreader] at hr
  obtain rfl := Option.some.inj hr
  exact fun w hw => of_run hkeeps h hw

end Filter

end Stencil.Template
