import Stencil.Files
import Stencil.Proofs.Text.Lines

/-!
# Writing through a path

A file is written at the location that its path leads to (`locate_of_target`), and writing it moves no
directory (`isDirectory_put`). So whatever is written through a path is read through it, and a path that
was written once can be written again.

Main statements: `held?_append` and `append_of_target`.
-/

namespace Stencil

namespace Files

/-- The text that a path holds; a path at which nothing stands holds the empty text. -/
def held? (fs : Files) (p : Path) : Option String :=
  match fs.read p with
  | .ok text => some text
  | .error .missing => some ""
  | .error _ => none

/-! ## Directories stay -/

/-- **A file in place of no directory** leaves all directories where they are. -/
theorem isDirectory_put {fs : Files} {l : Location} (hl : l ≠ []) (h : fs.isDirectory l = false)
    (content : Content) : (fs.put l (.file content)).isDirectory = fs.isDirectory := by
  funext m
  unfold isDirectory
  rw [lookup?_put fs hl]
  split
  · rename_i he
    subst he
    rw [← isDirectory, h]
    rfl
  · rfl

/-! ## Following a path -/

/-- Where one segment of a path leads. -/
def step? (l : Location) (segment : String) : Option Location :=
  if Path.isIdle segment then some l
  else if segment = ".." then some l.tail
  else if nameLimit < segment.utf8ByteSize then none
  else some (segment :: l)

/-- A path is followed from a directory, one segment at a time. -/
theorem walk_cons_eq_ok {fs : Files} {l m : Location} {s : String} {rest : List String} :
    fs.walk l (s :: rest) = .ok m
      ↔ fs.isDirectory l = true ∧ ∃ n, step? l s = some n ∧ fs.walk n rest = .ok m := by
  rw [walk, step?]
  by_cases hd : fs.isDirectory l = true
  · by_cases hi : Path.isIdle s = true
    · simp [hd, hi]
    · by_cases hu : s = ".."
      · subst hu
        simp [hd, hi]
      · by_cases hn : nameLimit < s.utf8ByteSize <;> simp [hd, hi, hu, hn]
  · simp [hd]

theorem walk_append_eq_ok {fs : Files} {l m : Location} {a b : List String} :
    fs.walk l (a ++ b) = .ok m ↔ ∃ n, fs.walk l a = .ok n ∧ fs.walk n b = .ok m := by
  induction a generalizing l with
  | nil => simp [walk]
  | cons s a ih =>
      simp only [List.cons_append, walk_cons_eq_ok, ih]
      constructor
      · rintro ⟨hd, n, hs, k, ha, hb⟩
        exact ⟨k, ⟨hd, n, hs, ha⟩, hb⟩
      · rintro ⟨k, ⟨hd, n, hs, ha⟩, hb⟩
        exact ⟨hd, n, hs, k, ha, hb⟩

/-- What a path leads to depends on the directories only. -/
theorem walk_congr {fs gs : Files} (h : gs.isDirectory = fs.isDirectory) {l m : Location}
    {segments : List String} (hw : fs.walk l segments = .ok m) : gs.walk l segments = .ok m := by
  induction segments generalizing l with
  | nil => exact hw
  | cons s rest ih =>
      obtain ⟨hd, n, hs, hn⟩ := walk_cons_eq_ok.mp hw
      exact walk_cons_eq_ok.mpr ⟨h ▸ hd, n, hs, ih hn⟩

/-! ## The location of a file -/

def endsSlashed (p : Path) : Bool := p.text.toList.getLast? == some '/'

theorem fileIn_eq_ok_iff {fs : Files} {l m : Location} {name : String} {slashed : Bool} :
    fs.fileIn l name slashed = .ok m
      ↔ m = name :: l ∧ fs.isDirectory l = true ∧ fs.isDirectory m = false
        ∧ slashed = false ∧ name ≠ "." ∧ name ≠ ".." ∧ name.utf8ByteSize ≤ nameLimit := by
  unfold fileIn
  constructor
  · intro h
    repeat' split at h
    all_goals simp_all
  · rintro ⟨rfl, hl, hm, rfl, hdot, hup, hlong⟩
    simp [hl, hm, hdot, hup, Nat.not_lt.mpr hlong]

/-- The parts of a path that a file can be written at. -/
theorem target_eq_ok_iff {fs : Files} {p : Path} {m : Location} :
    fs.target p = .ok m
      ↔ refusal? p = none ∧ ∃ name up l, p.segments.reverse.dropWhile (· == "") = name :: up
        ∧ fs.walk (fs.start p) up.reverse = .ok l ∧ fs.fileIn l name (endsSlashed p) = .ok m := by
  unfold target endsSlashed
  constructor
  · intro h
    split at h
    · contradiction
    · rename_i hr
      split at h
      · contradiction
      · rename_i name up hs
        split at h
        · contradiction
        · rename_i l hw
          exact ⟨hr, name, up, l, hs, hw, h⟩
  · rintro ⟨hr, name, up, l, hs, hw, hf⟩
    simp only [hr, hs, hw, hf]

/-- Where a file is written depends on the directories only. -/
theorem target_congr {fs gs : Files} (hd : gs.isDirectory = fs.isDirectory) (hh : gs.here = fs.here)
    {p : Path} {m : Location} (h : fs.target p = .ok m) : gs.target p = .ok m := by
  obtain ⟨hr, name, up, l, hs, hw, hf⟩ := target_eq_ok_iff.mp h
  have hstart : gs.start p = fs.start p := by rw [start, start, hh]
  refine target_eq_ok_iff.mpr ⟨hr, name, up, l, hs, ?_, ?_⟩
  · rw [hstart]
    exact walk_congr hd hw
  · rw [fileIn_eq_ok_iff, hd]
    exact fileIn_eq_ok_iff.mp hf

/-- A file that was written can be written again. -/
theorem target_put {fs : Files} {p : Path} {l : Location} (h : fs.target p = .ok l)
    (content : Content) : (fs.put l (.file content)).target p = .ok l :=
  target_congr (isDirectory_put (target_ne_nil h) (not_directory_of_target h) content) rfl h

/-- The last segment of a path that does not end with a slash is not empty. -/
theorem getLast?_segments_ne {p : Path} (hr : refusal? p = none) (hs : endsSlashed p = false) :
    p.segments.getLast? ≠ some "" := by
  have hne : p.text.toList ≠ [] := by
    intro he
    have ht : p.text = "" := String.toList_inj.mp he
    simp [refusal?, ht] at hr
  have hlast := Text.getLast?_split_ne hne (by simpa [endsSlashed] using hs)
  simpa [Path.segments] using hlast

/-- **A file is read where it is written.** -/
theorem locate_of_target {fs : Files} {p : Path} {m : Location} (h : fs.target p = .ok m) :
    fs.locate p = .ok m := by
  obtain ⟨hr, name, up, l, hs, hw, hf⟩ := target_eq_ok_iff.mp h
  obtain ⟨rfl, hl, -, hslash, hdot, hup, hlong⟩ := fileIn_eq_ok_iff.mp hf
  have hlast : p.segments.reverse.head? ≠ some "" := by
    rw [List.head?_reverse]
    exact getLast?_segments_ne hr hslash
  rw [List.dropWhile_beq_eq_self_of_head?_ne hlast] at hs
  have hsegments : p.segments = up.reverse ++ [name] := by
    rw [← List.reverse_reverse p.segments, hs, List.reverse_cons]
  have hname : name ≠ "" := fun he => hlast (by rw [hs, he]; rfl)
  have hidle : Path.isIdle name = false := by simp [Path.isIdle, hname, hdot]
  have hstep : step? l name = some (name :: l) := by
    simp [step?, hidle, hup, Nat.not_lt.mpr hlong]
  rw [locate, hr, hsegments]
  exact walk_append_eq_ok.mpr ⟨l, hw, walk_cons_eq_ok.mpr ⟨hl, _, hstep, rfl⟩⟩

/-! ## What a path holds -/

theorem held?_put {fs : Files} {p : Path} {l : Location} (h : fs.target p = .ok l) (text : String) :
    (fs.put l (.file (.text text))).held? p = some text := by
  have hlocate := locate_of_target (target_put h (.text text))
  rw [held?, read, hlocate]
  simp [lookup?_put fs (target_ne_nil h)]

/-- What stands somewhere stands there when a file has been put anywhere. -/
theorem holds_put {fs : Files} {l : Location} (hl : l ≠ []) (h : fs.isDirectory l = false)
    (content : Content) {p : Path} (hp : fs.holds p = true) :
    (fs.put l (.file content)).holds p = true := by
  unfold holds locate at hp ⊢
  cases hr : refusal? p with
  | some f => simp [hr] at hp
  | none =>
      cases hw : fs.walk (fs.start p) p.segments with
      | error f => simp [hr, hw] at hp
      | ok m =>
          have hw' : (fs.put l (.file content)).walk (fs.start p) p.segments = .ok m :=
            walk_congr (isDirectory_put hl h content) hw
          have hstart : (fs.put l (.file content)).start p = fs.start p := rfl
          simp only [hr, hw] at hp
          simp only [hstart, hw', lookup?_put fs hl]
          split
          · rfl
          · exact hp

theorem contentAt_of_held? {fs : Files} {p : Path} {l : Location} {before : String}
    (h : fs.held? p = some before) (ht : fs.target p = .ok l) : fs.contentAt l = .text before := by
  rw [held?, read, locate_of_target ht] at h
  have hd := not_directory_of_target ht
  unfold contentAt
  cases hl : fs.lookup? l with
  | none => simpa [hl, eq_comm] using h
  | some e =>
      cases e with
      | directory => simp [isDirectory, hl] at hd
      | file content => cases content <;> simp_all

/-- **What is added to a file comes behind what it held.** -/
theorem held?_append {fs gs : Files} {p : Path} {before more : String}
    (h : fs.held? p = some before) (ha : fs.append p more = .ok gs) :
    gs.held? p = some (before ++ more) := by
  unfold append at ha
  split at ha
  · contradiction
  · rename_i l ht
    rw [contentAt_of_held? h ht, Content.append_text, Except.ok.injEq] at ha
    subst ha
    exact held?_put ht _

/-- **A file that can be written can be added to**, as often as wanted, and what stood somewhere stays. -/
theorem append_of_target {fs : Files} {p : Path} {l : Location} (h : fs.target p = .ok l)
    (more : String) :
    ∃ gs, fs.append p more = .ok gs ∧ gs.target p = .ok l
      ∧ ∀ q, fs.holds q = true → gs.holds q = true := by
  refine ⟨fs.put l (.file ((fs.contentAt l).append more)), ?_, target_put h _, ?_⟩
  · rw [append, h]
  · exact fun q => holds_put (target_ne_nil h) (not_directory_of_target h) _

end Files

end Stencil
