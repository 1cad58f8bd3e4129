import Stencil.Variables
import Mathlib.Data.List.Induction
import Mathlib.Data.List.Perm.Subperm

/-!
# What entries in order leave behind

Entries are inserted one after the other. A name stays where it first came, and its value is the last one
that was given to it.

Main statements: `keys_ofEntries` for the names and `get?_ofEntries` for the values, `length_ofEntries_eq_iff` for
what is lost, and `insertAll_ofEntries` for entries that are inserted after others.
-/

namespace Stencil

/-- The first of some items that passes a test is related to the first of the items that they are related to. -/
theorem exists_find?_of_forall₂ {α β : Type} {r : α → β → Prop} {p : α → Bool} {q : β → Bool} {as : List α}
    {bs : List β} (h : List.Forall₂ r as bs) (hpq : ∀ a b, r a b → p a = q b) {b : β} (hb : bs.find? q = some b) :
    ∃ a, as.find? p = some a ∧ r a b := by
  induction h with
  | nil => contradiction
  | @cons a c as bs hr _ ih =>
      rw [List.find?_cons] at hb ⊢
      rw [hpq a c hr]
      cases hq : q c with
      | true =>
          rw [hq] at hb
          obtain rfl := Option.some.inj hb
          exact ⟨a, rfl, hr⟩
      | false =>
          rw [hq] at hb
          exact ih hb

/-- Where nothing stands twice nothing is dropped. -/
theorem eraseDups_of_nodup {α : Type} [BEq α] [LawfulBEq α] {l : List α} (h : l.Nodup) : l.eraseDups = l := by
  induction l with
  | nil => rfl
  | cons a l ih =>
      obtain ⟨ha, hl⟩ := List.nodup_cons.mp h
      have hfilter : l.filter (fun b => !b == a) = l := by
        refine List.filter_eq_self.mpr fun b hb => ?_
        have hne : b ≠ a := fun he => ha (he ▸ hb)
        simp [hne]
      rw [List.eraseDups_cons, hfilter, ih hl]

namespace Members

variable {α : Type}

theorem insertAll_append (m : Members α) (a b : List (String × α)) :
    insertAll m (a ++ b) = insertAll (insertAll m a) b := List.foldl_append

theorem ofEntries_concat (es : List (String × α)) (e : String × α) :
    ofEntries (es ++ [e]) = insert (ofEntries es) e.1 e.2 := insertAll_append [] es [e]

theorem ofEntries_ne_nil {es : List (String × α)} (h : es ≠ []) : ofEntries es ≠ [] := by
  rcases List.eq_nil_or_concat es with rfl | ⟨before, e, rfl⟩
  · exact absurd rfl h
  · rw [List.concat_eq_append, ofEntries_concat]
    exact insert_ne_nil _ _ _

/-- **Every name stays where it first came.** -/
theorem keys_ofEntries (es : List (String × α)) :
    keys (ofEntries es) = (es.map Prod.fst).eraseDups := by
  induction es using List.reverseRecOn with
  | nil => rfl
  | append_singleton es e ih =>
      rw [ofEntries_concat, keys_insert, ih, List.map_append, List.eraseDups_append]
      by_cases hm : e.1 ∈ es.map Prod.fst
      · rw [if_pos (List.mem_eraseDups.mpr hm)]
        simp [List.removeAll, hm]
      · rw [if_neg fun h => hm (List.mem_eraseDups.mp h)]
        simp [List.removeAll, hm, List.eraseDups_cons]

theorem insert_of_not_mem {m : Members α} {name : String} (h : name ∉ keys m) (value : α) :
    insert m name value = m ++ [(name, value)] := by
  induction m with
  | nil => rfl
  | cons e m ih =>
      obtain ⟨hne, hm⟩ : name ≠ e.1 ∧ name ∉ keys m := by simpa using h
      simp [insert, Ne.symm hne, ih hm]

/-- Entries with distinct names are left as they are. -/
theorem ofEntries_of_nodup {es : List (String × α)} (h : (keys es).Nodup) : ofEntries es = es := by
  induction es using List.reverseRecOn with
  | nil => rfl
  | append_singleton es e ih =>
      rw [keys, List.map_append, List.nodup_append] at h
      obtain ⟨hes, -, hne⟩ := h
      have hnot : e.1 ∉ keys es := fun hm => hne _ hm _ (by simp) rfl
      rw [ofEntries_concat, ih hes, insert_of_not_mem hnot]

/-- Entries with other names leave a value as it is. -/
theorem get?_insertAll_of_forall_ne {es : List (String × α)} {name : String}
    (h : ∀ e ∈ es, e.1 ≠ name) (m : Members α) : get? (insertAll m es) name = get? m name := by
  induction es generalizing m with
  | nil => rfl
  | cons e es ih =>
      have hes : ∀ f ∈ es, f.1 ≠ name := fun f hf => h f (List.mem_cons_of_mem _ hf)
      calc get? (insertAll m (e :: es)) name = get? (insert m e.1 e.2) name := ih hes _
        _ = get? m name := by rw [get?_insert, if_neg (h e List.mem_cons_self)]

/-- **The last value of a name stays.** -/
theorem get?_ofEntries {after : List (String × α)} {name : String} (h : ∀ e ∈ after, e.1 ≠ name)
    (before : List (String × α)) (value : α) :
    get? (ofEntries (before ++ (name, value) :: after)) name = some value := by
  calc get? (ofEntries (before ++ (name, value) :: after)) name
      = get? (insertAll (insert (ofEntries before) name value) after) name := by
        rw [ofEntries, insertAll_append]
        rfl
    _ = some value := by rw [get?_insertAll_of_forall_ne h, get?_insert, if_pos rfl]

theorem get?_map {β : Type} (f : String → α → β) (m : Members α) (name : String) :
    get? (m.map fun e => (e.1, f e.1 e.2)) name = (get? m name).map (f name) := by
  induction m with
  | nil => rfl
  | cons e m ih =>
      obtain ⟨k, v⟩ := e
      by_cases hk : k = name
      · subst hk
        simp [get?]
      · simp [get?, hk, ih]

theorem get?_append (m n : Members α) (name : String) : get? (m ++ n) name = (get? m name).or (get? n name) := by
  induction m with
  | nil => rfl
  | cons e m ih => by_cases h : e.1 = name <;> simp [get?, h, ih]

/-- The value of a name is that of the last entry of the name. -/
theorem get?_ofEntries_eq_find? (es : List (String × α)) (name : String) :
    get? (ofEntries es) name = (es.reverse.find? fun e => e.1 = name).map Prod.snd := by
  induction es using List.reverseRecOn with
  | nil => rfl
  | append_singleton es e ih =>
      rw [ofEntries_concat, get?_insert, ih, List.reverse_append, List.reverse_singleton, List.singleton_append,
        List.find?_cons]
      by_cases h : e.1 = name <;> simp [h]

/-! ## Inserting after what is there -/

theorem insert_insert (m : Members α) (name : String) (v w : α) :
    insert (insert m name v) name w = insert m name w := by
  induction m with
  | nil => simp [insert]
  | cons e m ih => by_cases h : e.1 = name <;> simp [insert, h, ih]

/-- A name that exists can be given its value before or after another name is inserted. -/
theorem insert_comm {m : Members α} {a b : String} (hne : a ≠ b) (hb : b ∈ keys m) (v w : α) :
    insert (insert m a v) b w = insert (insert m b w) a v := by
  induction m with
  | nil => cases hb
  | cons e m ih =>
      obtain ⟨k, u⟩ := e
      by_cases hka : k = a
      · subst hka
        simp [insert, hne]
      · by_cases hkb : k = b
        · subst hkb
          simp [insert, hka]
        · have hm : b ∈ keys m := (List.mem_cons.mp hb).resolve_left (Ne.symm hkb)
          simp [insert, hka, hkb, ih hm]

theorem insertAll_insert_of_mem {m p : Members α} {name : String} (hm : name ∈ keys m)
    (hp : name ∉ keys p) (v : α) : insertAll (insert m name v) p = insert (insertAll m p) name v := by
  induction p generalizing m with
  | nil => rfl
  | cons e p ih =>
      obtain ⟨hne, hp⟩ : name ≠ e.1 ∧ name ∉ keys p := by simpa using hp
      have hm' : name ∈ keys (insert m e.1 e.2) := by
        rw [keys_insert]
        split <;> simp [hm]
      calc insertAll (insert m name v) (e :: p)
          = insertAll (insert (insert m e.1 e.2) name v) p := by
            rw [insert_comm (Ne.symm hne) hm]
            rfl
        _ = insert (insertAll m (e :: p)) name v := ih hm' hp

/-- Inserting members is inserting one of them last. -/
theorem insertAll_insert {p : Members α} (hp : (keys p).Nodup) (m : Members α) (name : String) (v : α) :
    insertAll m (insert p name v) = insert (insertAll m p) name v := by
  induction p generalizing m with
  | nil => rfl
  | cons e p ih =>
      obtain ⟨k, w⟩ := e
      obtain ⟨hk, hp⟩ := List.nodup_cons.mp hp
      by_cases h : k = name
      · subst h
        have hm : k ∈ keys (insert m k w) := by
          rw [keys_insert]
          split <;> simp_all
        calc insertAll m (insert ((k, w) :: p) k v)
            = insertAll (insert (insert m k w) k v) p := by
              rw [insert_insert]
              simp [insert, insertAll]
          _ = insert (insertAll m ((k, w) :: p)) k v := insertAll_insert_of_mem hm hk v
      · simpa [insert, h, insertAll] using ih hp (insert m k w)

theorem nodup_keys_ofEntries (es : List (String × α)) : (keys (ofEntries es)).Nodup := by
  induction es using List.reverseRecOn with
  | nil => exact List.nodup_nil
  | append_singleton es e ih =>
      rw [ofEntries_concat]
      exact nodup_keys_insert ih e.1 e.2

/-- **No entry is lost exactly when the names are distinct.** -/
theorem length_ofEntries_eq_iff {es : List (String × α)} :
    (ofEntries es).length = es.length ↔ (keys es).Nodup := by
  constructor
  · intro h
    have hnodup := nodup_keys_ofEntries es
    have hsub : keys (ofEntries es) ⊆ keys es := by
      intro name hm
      rwa [keys_ofEntries, List.mem_eraseDups] at hm
    have hperm : List.Perm (keys (ofEntries es)) (keys es) :=
      (hnodup.subperm hsub).perm_of_length_le (by simp [keys, h])
    exact hperm.nodup_iff.mp hnodup
  · intro h
    rw [ofEntries_of_nodup h]

/-- **Inserting what entries leave behind is inserting the entries.** -/
theorem insertAll_ofEntries (m : Members α) (es : List (String × α)) :
    insertAll m (ofEntries es) = insertAll m es := by
  induction es using List.reverseRecOn with
  | nil => rfl
  | append_singleton es e ih =>
      rw [ofEntries_concat, insertAll_insert (nodup_keys_ofEntries es), ih, insertAll_append]
      rfl

/-- **Names that exist keep their places**, and new names follow. -/
theorem keys_insertAll {p : Members α} (hp : (keys p).Nodup) (m : Members α) :
    keys (insertAll m p) = keys m ++ (keys p).filter (· ∉ keys m) := by
  induction p using List.reverseRecOn with
  | nil => simp [insertAll]
  | append_singleton p e ih =>
      rw [keys, List.map_append, List.nodup_append] at hp
      obtain ⟨hp, -, hne⟩ := hp
      have hnot : e.1 ∉ keys p := fun hm => hne _ hm _ (by simp) rfl
      have hlast : insertAll m (p ++ [e]) = insert (insertAll m p) e.1 e.2 := insertAll_append m p [e]
      have hkeys : keys (p ++ [e]) = keys p ++ [e.1] := by simp [keys]
      rw [hlast, keys_insert, ih hp, hkeys, List.filter_append]
      by_cases hm : e.1 ∈ keys m <;> simp [hm, hnot]

/-- **Names are given their new values.** -/
theorem get?_insertAll {p : Members α} (hp : (keys p).Nodup) (m : Members α) (name : String) :
    get? (insertAll m p) name = (get? p name).or (get? m name) := by
  induction p generalizing m with
  | nil => rfl
  | cons e p ih =>
      obtain ⟨hk, hp⟩ := List.nodup_cons.mp hp
      calc get? (insertAll m (e :: p)) name
          = (get? p name).or (get? (insert m e.1 e.2) name) := ih hp _
        _ = (get? (e :: p) name).or (get? m name) := by
          rw [get?_insert, get?]
          by_cases h : e.1 = name
          · have hnone : get? p name = none := get?_eq_none_iff.mpr (h ▸ hk)
            simp [h, hnone]
          · simp [h]

end Members

namespace Variables

theorem ofMembers?_of_members {m : Members Json} {v : Variables} (h : v.members = m) :
    ofMembers? m = some v := by
  obtain ⟨members, hne⟩ := v
  obtain rfl : members = m := h
  cases members with
  | nil => exact absurd rfl hne
  | cons e es => rfl

end Variables

end Stencil
