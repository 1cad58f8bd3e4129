import Stencil.Proofs.Files.Writing

/-!
# What stands where a path leads

Where a path leads depends on the directories only, and a file that is written is put where no directory
stands. So a write leaves every path where it led (`sameTree_put`), and changes what stands at its end only
if it leads to the place that is written (`standing?_put_of_ne`).
-/

namespace Stencil.Files

/-! ## Putting twice -/

theorem putIn_putIn (entries : List (Location × Entry)) (l : Location) (a b : Entry) :
    putIn (putIn entries l a) l b = putIn entries l b := by
  induction entries with
  | nil => simp [putIn]
  | cons x rest ih =>
      obtain ⟨place, old⟩ := x
      by_cases hk : place = l
      · simp [putIn, hk]
      · simp [putIn, hk, ih]

/-- What is put later takes the place of what was put before. -/
theorem put_put (fs : Files) (l : Location) (a b : Entry) : (fs.put l a).put l b = fs.put l b := by
  simp only [put, putIn_putIn]

theorem contentAt_put (fs : Files) {l : Location} (hl : l ≠ []) (c : Content) :
    (fs.put l (.file c)).contentAt l = c := by
  simp [contentAt, lookup?_put fs hl]

/-! ## The same tree -/

/-- Whether files have the same directories and the same working directory as others. -/
structure SameTree (fs gs : Files) : Prop where
  isDirectory : gs.isDirectory = fs.isDirectory
  here : gs.here = fs.here

namespace SameTree

variable {fs gs hs : Files}

theorem refl (fs : Files) : fs.SameTree fs := ⟨rfl, rfl⟩

theorem symm (h : fs.SameTree gs) : gs.SameTree fs := ⟨h.isDirectory.symm, h.here.symm⟩

theorem trans (h : fs.SameTree gs) (h' : gs.SameTree hs) : fs.SameTree hs :=
  ⟨h'.isDirectory.trans h.isDirectory, h'.here.trans h.here⟩

theorem locate_of_locate (h : fs.SameTree gs) {p : Path} {l : Location} (hl : fs.locate p = .ok l) :
    gs.locate p = .ok l := by
  have hstart : gs.start p = fs.start p := by rw [start, start, h.here]
  unfold locate at hl ⊢
  split at hl
  · contradiction
  · rw [hstart]
    exact walk_congr h.isDirectory hl

/-- **In the same tree a path leads to the same place.** -/
theorem locate_eq_ok_iff (h : fs.SameTree gs) {p : Path} {l : Location} :
    gs.locate p = .ok l ↔ fs.locate p = .ok l :=
  ⟨h.symm.locate_of_locate, h.locate_of_locate⟩

end SameTree

theorem sameTree_put {fs : Files} {p : Path} {l : Location} (h : fs.target p = .ok l) (c : Content) :
    fs.SameTree (fs.put l (.file c)) :=
  ⟨isDirectory_put (target_ne_nil h) (not_directory_of_target h) c, rfl⟩

/-! ## What stands at the end of a path -/

/-- What stands where a path leads. -/
def standing? (fs : Files) (p : Path) : Option Entry :=
  match fs.locate p with
  | .ok l => fs.lookup? l
  | .error _ => none

/-- Whether two paths lead to one file, or to one place where a file can be put. -/
def SameFile (fs : Files) (p q : Path) : Prop :=
  ∃ l, fs.locate p = .ok l ∧ fs.locate q = .ok l ∧ fs.isDirectory l = false

variable {fs gs : Files} {p q : Path} {l : Location}

theorem standing?_of_locate (h : fs.locate p = .ok l) : fs.standing? p = fs.lookup? l := by
  rw [standing?, h]

theorem sameFile_of_target (hp : fs.locate p = .ok l) (hq : fs.target q = .ok l) :
    fs.SameFile p q := ⟨l, hp, locate_of_target hq, not_directory_of_target hq⟩

theorem not_sameFile_of_locate {m : Location} (hp : fs.locate p = .ok l) (hq : fs.locate q = .ok m)
    (h : l ≠ m) : ¬ fs.SameFile p q := by
  rintro ⟨n, hp', hq', -⟩
  exact h (Except.ok.inj (hp.symm.trans (hp'.trans (hq'.symm.trans hq))))

theorem SameFile.trans {r : Path} (h : fs.SameFile p q) (h' : fs.SameFile q r) : fs.SameFile p r := by
  obtain ⟨l, hp, hq, hd⟩ := h
  obtain ⟨m, hq', hr, -⟩ := h'
  obtain rfl := Except.ok.inj (hq.symm.trans hq')
  exact ⟨l, hp, hr, hd⟩

theorem SameTree.sameFile_iff (h : fs.SameTree gs) : gs.SameFile p q ↔ fs.SameFile p q := by
  simp only [SameFile, h.locate_eq_ok_iff, h.isDirectory]

theorem standing?_put_of_locate (h : fs.target q = .ok l) (hp : fs.locate p = .ok l) (c : Content) :
    (fs.put l (.file c)).standing? p = some (.file c) := by
  have hlocate := (sameTree_put h c).locate_of_locate hp
  rw [standing?_of_locate hlocate, lookup?_put fs (target_ne_nil h), if_pos rfl]

theorem standing?_put_self (h : fs.target p = .ok l) (c : Content) :
    (fs.put l (.file c)).standing? p = some (.file c) :=
  standing?_put_of_locate h (locate_of_target h) c

/-- **A file that is put elsewhere** leaves what stands at the end of a path. -/
theorem standing?_put_of_ne (h : fs.target q = .ok l) (hp : fs.locate p ≠ .ok l) (c : Content) :
    (fs.put l (.file c)).standing? p = fs.standing? p := by
  have htree := sameTree_put h c
  cases hm : fs.locate p with
  | ok m =>
      have hne : l ≠ m := fun he => hp (he ▸ hm)
      rw [standing?_of_locate (htree.locate_of_locate hm), standing?_of_locate hm,
        lookup?_put fs (target_ne_nil h), if_neg hne]
  | error f =>
      have herror : ∀ m, (fs.put l (.file c)).locate p ≠ .ok m := fun m hm' => by
        rw [htree.locate_eq_ok_iff, hm] at hm'
        contradiction
      unfold standing?
      split
      · rename_i m hm'
        exact absurd hm' (herror m)
      · rw [hm]

theorem standing?_put_of_not_sameFile (h : fs.target q = .ok l) (hp : ¬ fs.SameFile p q)
    (c : Content) : (fs.put l (.file c)).standing? p = fs.standing? p :=
  standing?_put_of_ne h (fun hl => hp (sameFile_of_target hl h)) c

/-- What a file holds already changes nothing when it is put there again. -/
theorem standing?_put_of_standing {c : Content} (h : fs.target q = .ok l)
    (hq : fs.standing? q = some (.file c)) (p : Path) :
    (fs.put l (.file c)).standing? p = fs.standing? p := by
  by_cases hp : fs.locate p = .ok l
  · rw [standing?_put_of_locate h hp, ← hq, standing?_of_locate hp,
      standing?_of_locate (locate_of_target h)]
  · exact standing?_put_of_ne h hp c

/-- What a file holds that is put back changes nothing, but that it is there. -/
theorem standing?_put_contentAt (h : fs.target p = .ok l) :
    (fs.put l (.file (fs.contentAt l))).standing? p = fs.standing? p
      ∨ fs.standing? p = none
        ∧ (fs.put l (.file (fs.contentAt l))).standing? p = some (.file (.text "")) := by
  rw [standing?_put_self h, standing?_of_locate (locate_of_target h)]
  have hd := not_directory_of_target h
  cases he : fs.lookup? l with
  | none => exact .inr ⟨rfl, by simp [contentAt, he]⟩
  | some e =>
      cases e with
      | directory => simp [isDirectory, he] at hd
      | file c => exact .inl (by simp [contentAt, he])

end Stencil.Files
