import Stencil.Proofs.Template.Unmarked
import Stencil.Template.Store

/-!
# Stores without marks

A store is unmarked when all values in it are: those that names are given, those that loops show, those
that macros and namespaces keep, and the operands on the pile. What is read from an unmarked store is
unmarked, and an unmarked value can be put anywhere into it.

Main statements: `lookup?_unmarked` and `view_unmarked` for what is read, `assign_unmarked` for what is
written.
-/

namespace Stencil.Template

def UnmarkedMembers (ms : Members Value) : Prop := ∀ m ∈ ms, m.2.Unmarked

/-- Whether the items that the state of a loop shows are unmarked. -/
structure LoopState.Unmarked (l : LoopState) : Prop where
  previous : l.previous.Unmarked
  next : l.next.Unmarked

namespace Store

/-- Whether all values in a store are unmarked. -/
structure Unmarked (st : Store) : Prop where
  frames : ∀ f ∈ st.frames, UnmarkedMembers f.locals
  loops : ∀ l ∈ st.loops, l.2.Unmarked
  ended : ∀ l ∈ st.ended, l.2.Unmarked
  closures : ∀ c ∈ st.closures, UnmarkedMembers c.2
  spaces : ∀ c ∈ st.spaces, UnmarkedMembers c.2
  pile : UnmarkedItems st.pile

theorem unmarked_start : Store.start.Unmarked where
  frames f hf := by
    obtain rfl := List.mem_singleton.mp hf
    exact List.forall_mem_nil _
  loops := List.forall_mem_nil _
  ended := List.forall_mem_nil _
  closures := List.forall_mem_nil _
  spaces := List.forall_mem_nil _
  pile := trivial

end Store

/-! ## Members -/

theorem mem_of_get? {α : Type} {ms : Members α} {name : String} {x : α}
    (h : Members.get? ms name = some x) : (name, x) ∈ ms := by
  induction ms with
  | nil => contradiction
  | cons m ms ih =>
      obtain ⟨k, y⟩ := m
      by_cases hk : k = name
      · subst hk
        simp only [Members.get?, if_true, Option.some.injEq] at h
        exact h ▸ List.mem_cons_self
      · simp only [Members.get?, if_neg hk] at h
        exact List.mem_cons_of_mem _ (ih h)

theorem UnmarkedMembers.get? {ms : Members Value} (h : UnmarkedMembers ms) (name : String) :
    UnmarkedAny (Members.get? ms name) := fun _ hv => h _ (mem_of_get? hv)

theorem UnmarkedMembers.insert {ms : Members Value} (h : UnmarkedMembers ms) {v : Value}
    (hv : v.Unmarked) (name : String) : UnmarkedMembers (Members.insert ms name v) := by
  induction ms with
  | nil => exact List.forall_mem_singleton.mpr hv
  | cons m ms ih =>
      obtain ⟨hm, hms⟩ := List.forall_mem_cons.mp h
      unfold Members.insert
      split
      · exact List.forall_mem_cons.mpr ⟨hv, hms⟩
      · exact List.forall_mem_cons.mpr ⟨hm, ih hms⟩

namespace Store

/-- A change that keeps a property of one entry keeps it of all. -/
theorem forall_mem_change {α : Type} (P : α → Prop) {f : α → α} (hf : ∀ x, P x → P (f x))
    (id : Nat) {entries : List (Nat × α)} (h : ∀ e ∈ entries, P e.2) :
    ∀ e ∈ change id f entries, P e.2 := by
  induction entries with
  | nil => exact h
  | cons e entries ih =>
      obtain ⟨he, hrest⟩ := List.forall_mem_cons.mp h
      unfold change
      split
      · exact List.forall_mem_cons.mpr ⟨hf _ he, hrest⟩
      · exact List.forall_mem_cons.mpr ⟨he, ih hrest⟩

theorem mem_of_lookup {α β : Type} [BEq α] [LawfulBEq α] {entries : List (α × β)} {a : α} {b : β}
    (h : entries.lookup a = some b) : (a, b) ∈ entries := by
  obtain ⟨before, after, heq, -⟩ := List.lookup_eq_some_iff.mp h
  rw [heq]
  exact List.mem_append_right _ List.mem_cons_self

variable {vars : String → Option Value} {st : Store} {v : Value}

/-! ## Looking up names -/

theorem inFrame?_unmarked (hvars : ∀ name, UnmarkedAny (vars name)) (h : st.Unmarked) (name : String)
    {f : Frame} (hf : UnmarkedMembers f.locals) :
    UnmarkedAny (inFrame? vars st.closures name f) := by
  unfold inFrame?
  split
  · rename_i w hw
    exact fun u hu => Option.some.inj hu ▸ hf.get? name w hw
  · split
    · exact fun u hu => Option.some.inj hu ▸ trivial
    · split
      · exact unmarkedAny_none
      · exact hvars _
      · intro u hu
        obtain ⟨kept, hk, hu⟩ := Option.bind_eq_some_iff.mp hu
        have hkept : UnmarkedMembers kept := h.closures _ (mem_of_lookup hk)
        exact hkept.get? _ u hu

/-- **What a name stands for is unmarked.** -/
theorem lookup?_unmarked (hvars : ∀ name, UnmarkedAny (vars name)) (h : st.Unmarked)
    (name : String) : UnmarkedAny (st.lookup? vars name) := by
  unfold lookup?
  split
  · rename_i w hw
    obtain ⟨f, hf, hw⟩ := List.exists_of_findSome?_eq_some hw
    exact fun u hu => Option.some.inj hu ▸ inFrame?_unmarked hvars h name (h.frames f hf) w hw
  · intro u hu
    obtain ⟨f, -, rfl⟩ := Option.map_eq_some_iff.mp hu
    exact trivial

/-! ## Writing -/

theorem settle_unmarked (h : st.Unmarked) (hv : v.Unmarked) :
    (st.settle v).1.Unmarked ∧ (st.settle v).2.Unmarked := by
  unfold settle
  split
  · exact ⟨{ h with }, rooted_unmarked _ _ _ hv⟩
  · exact ⟨h, hv⟩

/-- **An unmarked value can be given to a name.** -/
theorem assign_unmarked (h : st.Unmarked) (hv : v.Unmarked) (name : String) :
    (st.assign name v).Unmarked := by
  obtain ⟨hst, hw⟩ := settle_unmarked h hv
  unfold assign
  generalize st.settle v = settled at hst hw
  obtain ⟨st', w⟩ := settled
  dsimp only at hst hw ⊢
  split
  · exact hst
  · rename_i f fs hframes
    obtain ⟨hf, hfs⟩ := List.forall_mem_cons.mp (hframes ▸ hst.frames)
    refine { hst with frames := List.forall_mem_cons.mpr ⟨hf.insert hw name, hfs⟩, closures := ?_ }
    split
    · exact forall_mem_change UnmarkedMembers (fun _ hk => hk.insert hw name) _ hst.closures
    · exact hst.closures

theorem setMember_unmarked (h : st.Unmarked) (hv : v.Unmarked) (id : Nat) (name : String) :
    (st.setMember id name v).Unmarked := by
  obtain ⟨hst, hw⟩ := settle_unmarked h hv
  exact { hst with
    spaces := forall_mem_change UnmarkedMembers (fun _ hm => hm.insert hw name) id hst.spaces }

theorem enter?_unmarked (h : st.Unmarked) {f : Frame} (hf : UnmarkedMembers f.locals) {st' : Store}
    (he : st.enter? f = some st') : st'.Unmarked := by
  unfold enter? at he
  split at he
  · contradiction
  · obtain rfl := Option.some.inj he
    exact { h with frames := List.forall_mem_cons.mpr ⟨hf, h.frames⟩ }

theorem leave_unmarked (h : st.Unmarked) : st.leave.Unmarked :=
  { h with frames := fun f hf => h.frames f (List.mem_of_mem_drop hf) }

theorem clear_unmarked (h : st.Unmarked) : st.clear.Unmarked := by
  unfold clear
  split
  · exact h
  · rename_i f fs hframes
    obtain ⟨-, hfs⟩ := List.forall_mem_cons.mp (hframes ▸ h.frames)
    exact { h with frames := List.forall_mem_cons.mpr ⟨List.forall_mem_nil _, hfs⟩ }

theorem push_unmarked (h : st.Unmarked) (hv : v.Unmarked) : (st.push v).Unmarked :=
  { h with pile := ⟨hv, h.pile⟩ }

theorem pop_unmarked (h : st.Unmarked) (n : Nat) :
    (st.pop n).1.Unmarked ∧ UnmarkedItems (st.pop n).2 := by
  refine ⟨{ h with pile := h.pile.subset (List.drop_subset n _) }, ?_⟩
  exact h.pile.subset fun w hw => List.take_subset n _ (List.mem_reverse.mp hw)

/-! ## Loops -/

theorem startLoop?_unmarked (h : st.Unmarked) {l : LoopState} (hl : l.Unmarked)
    {started : Store × Nat} (hs : st.startLoop? l = some started) : started.1.Unmarked := by
  obtain ⟨inside, hi, rfl⟩ := Option.map_eq_some_iff.mp hs
  have hlocals : UnmarkedMembers { Frame.empty with loop := .running st.fresh }.locals :=
    List.forall_mem_nil _
  have hinside := enter?_unmarked h hlocals hi
  exact { hinside with loops := List.forall_mem_cons.mpr ⟨hl, h.loops⟩ }

theorem endLoop_unmarked (h : st.Unmarked) : st.endLoop.Unmarked :=
  { leave_unmarked h with
    loops := fun l hl => h.loops l (List.mem_of_mem_drop hl)
    ended := List.forall_mem_append.mpr
      ⟨fun l hl => h.loops l (List.mem_of_mem_take hl), h.ended⟩ }

theorem changeLoop_unmarked (h : st.Unmarked) (id : Nat) {f : LoopState → LoopState}
    (hf : ∀ l, l.Unmarked → (f l).Unmarked) : (st.changeLoop id f).Unmarked := by
  unfold changeLoop
  split
  · exact { h with loops := forall_mem_change LoopState.Unmarked hf id h.loops }
  · exact { h with ended := forall_mem_change LoopState.Unmarked hf id h.ended }

theorem loop?_unmarked (h : st.Unmarked) {id : Nat} {l : LoopState} (hl : st.loop? id = some l) :
    l.Unmarked := by
  unfold loop? at hl
  split at hl
  · rename_i l' hl'
    exact Option.some.inj hl ▸ h.loops _ (mem_of_lookup hl')
  · exact h.ended _ (mem_of_lookup hl)

theorem loopFields_unmarked {l : LoopState} (h : l.Unmarked) : UnmarkedFields (loopFields l) := by
  have hcounted (f : Nat → Nat) :
      ((l.length.map fun n => Value.ofCount (f n)).getD .undefined).Unmarked := by
    cases l.length <;> exact trivial
  exact ⟨trivial, trivial, hcounted id, hcounted _, hcounted _, trivial, trivial, trivial, trivial,
    h.previous, h.next, trivial⟩

/-! ## Seeing through references -/

theorem membersOf_unmarked (h : st.Unmarked) (id : Nat) : UnmarkedMembers (st.membersOf id) := by
  intro m hm
  have hm' : m ∈ (st.spaces.lookup id).getD [] := List.mem_mergeSort.mp hm
  cases hs : st.spaces.lookup id with
  | none => simp [hs] at hm'
  | some ms =>
      rw [hs] at hm'
      exact h.spaces _ (mem_of_lookup hs) m hm'

/-- The entries of a namespace as a mapping. -/
theorem memberEntries_unmarked {f : Value → Value} (hf : ∀ w : Value, w.Unmarked → (f w).Unmarked)
    {ms : Members Value} (h : UnmarkedMembers ms) :
    UnmarkedEntries (ms.map fun m => (.text m.1, f m.2)) := by
  refine unmarkedEntries_iff.mpr (List.forall_mem_map.mpr fun m hm => ?_)
  exact ⟨rfl, hf m.2 (h m hm)⟩

theorem unmarkedItems_map {f : Value → Value} (hf : ∀ w : Value, w.Unmarked → (f w).Unmarked)
    {vs : List Value} (h : UnmarkedItems vs) : UnmarkedItems (vs.map f) :=
  unmarkedItems_iff.mpr
    (List.forall_mem_map.mpr fun w hw => hf w (unmarkedItems_iff.mp h w hw))

theorem unmarkedEntries_map {f : Value → Value} (hf : ∀ w : Value, w.Unmarked → (f w).Unmarked)
    {es : List (Value × Value)} (h : UnmarkedEntries es) :
    UnmarkedEntries (es.map fun e => (f e.1, f e.2)) := by
  refine unmarkedEntries_iff.mpr (List.forall_mem_map.mpr fun e he => ?_)
  obtain ⟨hk, hv⟩ := unmarkedEntries_iff.mp h e he
  exact ⟨hf _ hk, hf _ hv⟩

theorem viewWithin_unmarked (h : st.Unmarked) (n : Nat) (hv : v.Unmarked) :
    (st.viewWithin n v).Unmarked := by
  induction n generalizing v with
  | zero => exact hv
  | succ n ih =>
      have hview : ∀ w : Value, w.Unmarked → (st.viewWithin n w).Unmarked := fun w hw => ih hw
      cases v with
      | list | iterator => exact unmarkedItems_map hview hv
      | group => exact ⟨hview _ hv.1, unmarkedItems_map hview hv.2⟩
      | map | keywords => exact unmarkedEntries_map hview hv
      | overlay =>
          refine ⟨unmarkedEntries_map hview hv.1, unmarkedLayers_iff.mpr ?_⟩
          refine List.forall_mem_map.mpr fun es he => ?_
          exact unmarkedEntries_map hview (unmarkedLayers_iff.mp hv.2 es he)
      | loop id =>
          unfold viewWithin
          dsimp only
          split
          · rename_i l hl
            exact loopFields_unmarked (loop?_unmarked h hl)
          · exact hv
      | space id => exact memberEntries_unmarked hview (membersOf_unmarked h id)
      | _ => exact hv

/-- **A value is unmarked after its references are followed.** -/
theorem view_unmarked (h : st.Unmarked) (hv : v.Unmarked) : (st.view v).Unmarked := by
  unfold view
  split
  · exact viewWithin_unmarked h 1 hv
  · split
    · exact hv
    · exact viewWithin_unmarked h _ hv

theorem face_unmarked (h : st.Unmarked) (hv : v.Unmarked) : (st.face v).Unmarked := by
  unfold face
  split
  · exact viewWithin_unmarked h 1 hv
  · exact memberEntries_unmarked (fun _ hw => hw) (membersOf_unmarked h _)
  · exact hv

theorem attribute?_unmarked (h : st.Unmarked) (hv : v.Unmarked) (name : String) :
    UnmarkedAny (st.attribute? v name) := by
  unfold Store.attribute?
  split
  · intro w hw
    obtain ⟨l, hl, hw⟩ := Option.bind_eq_some_iff.mp hw
    exact unmarkedFields_iff.mp (loopFields_unmarked (loop?_unmarked h hl)) _ (mem_of_lookup hw)
  · intro w hw
    obtain ⟨ms, hm, hw⟩ := Option.bind_eq_some_iff.mp hw
    have hms : UnmarkedMembers ms := h.spaces _ (mem_of_lookup hm)
    exact hms.get? name w hw
  · exact Template.attribute?_unmarked hv name

theorem item?_unmarked (h : st.Unmarked) (hv : v.Unmarked) (key : Value) :
    UnmarkedAny (st.item? v key) := by
  unfold Store.item?
  split
  · exact attribute?_unmarked h hv _
  · exact attribute?_unmarked h hv _
  · exact Template.item?_unmarked hv key

end Store

end Stencil.Template
