import Mathlib.Data.List.Basic
import Stencil.Proofs.Publication.Failure
import Stencil.Proofs.Publication.History

/-!
# Publications that succeed

A publication that succeeds is a run of writes, one for every destination, in which files of outputs come last. What
stands at a location in the end has been put there by the last write to it (`Ran.exists_lookup?`), and a location that
no destination leads to is as it was (`Ran.lookup?_eq`). A file of outputs holds what it held and an entry for every
time that it is written, unless it is replaced too (`Ran.exists_entries`).

Main statement: `published_of_succeeded`.
-/

namespace Stencil

theorem Content.append_append (c : Content) (a b : String) : c.append (a ++ b) = (c.append a).append b := by
  cases c with
  | text s => simp [String.append_assoc]
  | binary bytes => simp [append]

def Destination.isAt (fs : Files) (l : Location) (d : Destination) : Bool :=
  d.path?.any fun q => fs.locate q = .ok l

theorem Destination.isAt_iff {fs : Files} {l : Location} {d : Destination} :
    d.isAt fs l = true ↔ ∃ q, d.path? = some q ∧ fs.locate q = .ok l := by
  simp [isAt, Option.any_eq_true]

namespace Outputs

open StepOutput (written)

/-! ## One write -/

/-- What a write of a text to a destination leads to when it succeeds. -/
inductive Done (o : Outputs) (delimiter text : String) : Destination → Outputs → Prop
  | printed : Done o delimiter text .standardOutput { o with stdout := o.stdout ++ text ++ "\n" }
  | replaced {q : Path} {l : Location} (h : o.files.target q = .ok l) :
      Done o delimiter text (.file q) { o with files := o.files.put l (.file (.text text)) }
  | added {q : Path} {l : Location} (h : o.files.target q = .ok l)
      (hd : ¬ delimiter.toList <:+: text.toList) :
      Done o delimiter text (.stepOutput q)
        { o with files :=
            o.files.put l (.file ((o.files.contentAt l).append (written delimiter outputName text))) }

variable {o o' : Outputs} {delimiter text : String} {d : Destination} {fs : Files} {l : Location}

theorem done_of_write (h : o.write delimiter text d = (o', none)) : Done o delimiter text d o' := by
  have heffect := effect_of_write h
  cases d with
  | standardOutput =>
      cases heffect
      exact .printed
  | file q =>
      cases heffect with
      | replaced ht => exact .replaced ht
  | stepOutput q =>
      obtain ⟨l, ht⟩ : ∃ l, o.files.target q = .ok l := by
        cases heffect with
        | added ht _ => exact ⟨_, ht⟩
      rw [write_stepOutput, addEntry_of_target ht] at h
      split at h
      · cases h
      · split at h
        · cases h
        · rename_i composed hc
          obtain ⟨⟨-, hd⟩, rfl⟩ := StepOutput.compose?_eq_ok_iff.mp hc
          cases h
          exact .added ht hd

/-- A destination whose file is written at a location is at that location only. -/
theorem isAt_eq_of_target (htree : fs.SameTree o.files) {q : Path} {m : Location}
    (hq : d.path? = some q) (ht : o.files.target q = .ok m) : d.isAt fs l = decide (m = l) := by
  have hm : fs.locate q = .ok m := htree.locate_eq_ok_iff.mp (Files.locate_of_target ht)
  simp [Destination.isAt, hq, hm]

namespace Done

theorem sameTree (h : Done o delimiter text d o') : o.files.SameTree o'.files := by
  cases h with
  | printed => exact .refl _
  | replaced ht | added ht _ => exact Files.sameTree_put ht _

theorem stdout (h : Done o delimiter text d o') :
    o'.stdout = o.stdout ++ if d = .standardOutput then text ++ "\n" else "" := by
  cases h <;> simp [String.append_assoc]

/-- **A write leaves all other locations as they are.** -/
theorem lookup?_eq (h : Done o delimiter text d o') (htree : fs.SameTree o.files) (hd : d.isAt fs l = false) :
    o'.files.lookup? l = o.files.lookup? l := by
  cases h with
  | printed => rfl
  | replaced ht | added ht _ =>
      rw [isAt_eq_of_target htree rfl ht, decide_eq_false_iff_not] at hd
      rw [Files.lookup?_put _ (Files.target_ne_nil ht), if_neg hd]

/-- What a write leaves at its location: the text, or what was there and an entry. -/
theorem lookup?_of_isAt (h : Done o delimiter text d o') (htree : fs.SameTree o.files) (hd : d.isAt fs l = true) :
    o'.files.lookup? l = some (.file (if d.isStepOutput then
      (o.files.contentAt l).append (written delimiter outputName text) else .text text)) := by
  cases h with
  | printed => contradiction
  | replaced ht | added ht _ =>
      rw [isAt_eq_of_target htree rfl ht, decide_eq_true_iff] at hd
      subst hd
      rw [Files.lookup?_put _ (Files.target_ne_nil ht), if_pos rfl]
      rfl

theorem contentAt_of_isAt (h : Done o delimiter text d o') (htree : fs.SameTree o.files) (hd : d.isAt fs l = true)
    (hkind : d.isStepOutput = true) :
    o'.files.contentAt l = (o.files.contentAt l).append (written delimiter outputName text)
      ∧ ¬ delimiter.toList <:+: text.toList := by
  have hl := h.lookup?_of_isAt htree hd
  rw [if_pos hkind] at hl
  refine ⟨by rw [Files.contentAt, hl], ?_⟩
  cases h with
  | printed | replaced _ => contradiction
  | added _ hdelimiter => exact hdelimiter

/-- The file of a destination that is written is where its path leads, and no directory is there. -/
theorem exists_locate (h : Done o delimiter text d o') (htree : fs.SameTree o.files) {q : Path}
    (hq : d.path? = some q) : ∃ l, fs.locate q = .ok l ∧ fs.isDirectory l = false := by
  cases h with
  | printed => contradiction
  | @replaced q' l ht | @added q' l ht _ =>
      obtain rfl := Option.some.inj hq
      refine ⟨l, htree.locate_eq_ok_iff.mp (Files.locate_of_target ht), ?_⟩
      rw [← htree.isDirectory]
      exact Files.not_directory_of_target ht

end Done

/-- The entries of a text, with the delimiters of some turns. -/
def entries (text : String) (δ : Nat → String) (turns : List Nat) : String :=
  String.join (turns.map fun n => written (δ n) outputName text)

theorem entries_cons (text : String) (δ : Nat → String) (n : Nat) (turns : List Nat) :
    entries text δ (n :: turns) = written (δ n) outputName text ++ entries text δ turns := by
  simp [entries]

end Outputs

namespace Publication

open Outputs StepOutput

/-! ## A run of writes -/

/-- Writes of a text to destinations one after another, all of which succeed. The delimiters are numbered on. -/
inductive Ran (text : String) (δ : Nat → String) : Nat → Outputs → List Destination → Outputs → Prop
  | nil (n : Nat) (o : Outputs) : Ran text δ n o [] o
  | cons {n : Nat} {o o' o'' : Outputs} {d : Destination} {ds : List Destination}
      (hd : Done o (δ n) text d o') (hds : Ran text δ (n + 1) o' ds o'') : Ran text δ n o (d :: ds) o''

variable {text : String} {δ : Nat → String} {n : Nat} {o o' : Outputs} {ds : List Destination} {fs : Files}
  {l : Location}

/-- **Writing that does not fail is a run.** -/
theorem ran_of_writeAll {ε : Nat → String} (hε : ∀ k, ε k = δ (n + k))
    (h : (writeAll text ε o ds).failure = none) : Ran text δ n o ds (writeAll text ε o ds).outputs := by
  induction ds generalizing n o ε with
  | nil => exact .nil n o
  | cons d ds ih =>
      obtain ⟨o', r, hw⟩ : ∃ o' r, o.write (ε 0) text d = (o', r) := ⟨_, _, rfl⟩
      cases r with
      | some fault =>
          rw [writeAll_cons_of_fault hw] at h
          contradiction
      | none =>
          have hnext : ∀ k, ε (k + 1) = δ (n + 1 + k) := fun k => by
            rw [hε, Nat.add_assoc, Nat.add_comm 1 k]
          rw [writeAll_cons hw] at h ⊢
          rw [hε 0, Nat.add_zero] at hw
          exact .cons (done_of_write hw) (ih hnext h)

namespace Ran

theorem sameTree (h : Ran text δ n o ds o') : o.files.SameTree o'.files := by
  induction h with
  | nil => exact .refl _
  | cons hd _ ih => exact hd.sameTree.trans ih

theorem stdout (h : Ran text δ n o ds o') :
    o'.stdout = o.stdout ++ String.join (List.replicate (ds.count .standardOutput) (text ++ "\n")) := by
  induction h with
  | nil => simp
  | @cons n o o' o'' d ds hd _ ih =>
      rw [ih, hd.stdout, List.count_cons]
      by_cases he : d = .standardOutput <;> simp [he, List.replicate_succ, String.append_assoc]

theorem exists_locate (h : Ran text δ n o ds o') (htree : fs.SameTree o.files) {d : Destination} (hd : d ∈ ds)
    {q : Path} (hq : d.path? = some q) : ∃ l, fs.locate q = .ok l ∧ fs.isDirectory l = false := by
  induction h with
  | nil => cases hd
  | cons hdone _ ih =>
      rcases List.mem_cons.mp hd with rfl | hd
      · exact hdone.exists_locate htree hq
      · exact ih (htree.trans hdone.sameTree) hd

/-- **A location that no destination leads to is as it was.** -/
theorem lookup?_eq (h : Ran text δ n o ds o') (htree : fs.SameTree o.files) (hl : ∀ d ∈ ds, d.isAt fs l = false) :
    o'.files.lookup? l = o.files.lookup? l := by
  induction h with
  | nil => rfl
  | cons hd _ ih =>
      obtain ⟨hfirst, hrest⟩ := List.forall_mem_cons.mp hl
      rw [ih (htree.trans hd.sameTree) hrest, hd.lookup?_eq htree hfirst]

/-- **What stands at a location in the end** is what the last write to it has left there. -/
theorem exists_lookup? (h : Ran text δ n o ds o') (htree : fs.SameTree o.files)
    (hl : ∃ d ∈ ds, d.isAt fs l = true) :
    ∃ d ∈ ds, d.isAt fs l = true
      ∧ ∃ c, o'.files.lookup? l = some (.file (if d.isStepOutput then c else .text text)) := by
  induction h with
  | nil =>
      obtain ⟨d, hd, -⟩ := hl
      cases hd
  | @cons n o o' o'' d ds hd hds ih =>
      have htree' := htree.trans hd.sameTree
      by_cases hmore : ∃ d ∈ ds, d.isAt fs l = true
      · obtain ⟨e, he, hlast⟩ := ih htree' hmore
        exact ⟨e, List.mem_cons_of_mem d he, hlast⟩
      · have hrest : ∀ e ∈ ds, e.isAt fs l = false :=
          fun e he => Bool.eq_false_iff.mpr fun hat => hmore ⟨e, he, hat⟩
        obtain ⟨e, he, hat⟩ := hl
        obtain rfl : e = d := (List.mem_cons.mp he).resolve_right fun hm => hmore ⟨e, hm, hat⟩
        have hthere := hd.lookup?_of_isAt htree hat
        rw [← hds.lookup?_eq htree' hrest] at hthere
        exact ⟨e, List.mem_cons_self, hat, _, hthere⟩

/-- **A file of outputs holds what it held and its entries**, one for every write to it. The entries are numbered as
the writes are, and their delimiters do not occur in the text. -/
theorem exists_entries (h : Ran text δ n o ds o') (htree : fs.SameTree o.files)
    (hl : ∀ d ∈ ds, d.isAt fs l = true → d.isStepOutput = true) :
    ∃ turns : List Nat, turns.length = ds.countP (·.isAt fs l) ∧ turns.Pairwise (· < ·)
      ∧ (∀ k ∈ turns, n ≤ k ∧ ¬ (δ k).toList <:+: text.toList)
      ∧ o'.files.contentAt l = (o.files.contentAt l).append (entries text δ turns) := by
  induction h with
  | nil => exact ⟨[], rfl, .nil, by simp, (Content.append_empty _).symm⟩
  | @cons n o o' o'' d ds hd _ ih =>
      obtain ⟨hfirst, hrest⟩ := List.forall_mem_cons.mp hl
      obtain ⟨turns, hlength, hsorted, hmem, hcontent⟩ := ih (htree.trans hd.sameTree) hrest
      have hlater : ∀ k ∈ turns, n < k := fun k hk => (hmem k hk).1
      by_cases hat : d.isAt fs l = true
      · have hthere := hd.contentAt_of_isAt htree hat (hfirst hat)
        refine ⟨n :: turns, ?_, List.pairwise_cons.mpr ⟨hlater, hsorted⟩, ?_, ?_⟩
        · rw [List.countP_cons_of_pos hat, List.length_cons, hlength]
        · rintro k (_ | ⟨_, hk⟩)
          · exact ⟨Nat.le_refl n, hthere.2⟩
          · exact ⟨Nat.le_of_lt (hlater k hk), (hmem k hk).2⟩
        · rw [hcontent, hthere.1, entries_cons, Content.append_append]
      · rw [Bool.not_eq_true] at hat
        refine ⟨turns, ?_, hsorted, fun k hk => ⟨Nat.le_of_lt (hlater k hk), (hmem k hk).2⟩, ?_⟩
        · rw [List.countP_cons_of_neg (by simp [hat]), hlength]
        · rw [hcontent, Files.contentAt, hd.lookup?_eq htree hat, ← Files.contentAt]

end Ran

/-! ## What a publication leaves -/

theorem ran_of_publish (h : (publish text δ fs ds).failure = none) :
    Ran text δ 0 ⟨fs, ""⟩ (ordered ds) (publish text δ fs ds).outputs := by
  unfold publish at h ⊢
  split at h
  · contradiction
  · exact ran_of_writeAll (fun k => by rw [Nat.zero_add]) h

/-- What the publication of a text to destinations leaves when nothing fails, next to the files before it. -/
structure Published (fs : Files) (text : String) (δ : Nat → String) (ds : List Destination) (o : Outputs) :
    Prop where
  /-- The text has been printed, with a newline behind it, as often as it was to go to standard output. -/
  stdout : o.stdout = String.join (List.replicate (ds.count .standardOutput) (text ++ "\n"))
  /-- A file holds the text and nothing else. -/
  file : ∀ q, .file q ∈ ds → o.files.standing? q = some (.file (.text text))
  /-- A file of outputs holds what it held and an entry for every destination that leads to it. Every entry has a
  delimiter of its own, which does not occur in the text. -/
  stepOutput : ∀ g, .stepOutput g ∈ ds → ∃ l turns, fs.locate g = .ok l
    ∧ turns.length = ds.countP (·.isAt fs l) ∧ turns.Pairwise (· < ·)
    ∧ (∀ n ∈ turns, ¬ (δ n).toList <:+: text.toList)
    ∧ o.files.standing? g = some (.file ((fs.contentAt l).append (entries text δ turns)))
  /-- What stands where no destination leads has not changed. -/
  elsewhere : ∀ l, (∀ d ∈ ds, d.isAt fs l = false) → o.files.lookup? l = fs.lookup? l

/-- Whether no file that is to be replaced is a file of outputs too. -/
def Apart (fs : Files) (ds : List Destination) : Prop :=
  ∀ q g, .file q ∈ ds → .stepOutput g ∈ ds → ¬ fs.SameFile q g

/-- Destinations at one place are of one kind. -/
theorem Apart.isStepOutput_eq (h : Apart fs ds) {d e : Destination} (hd : d ∈ ds) (he : e ∈ ds)
    (hdl : d.isAt fs l = true) (hel : e.isAt fs l = true) (hl : fs.isDirectory l = false) :
    d.isStepOutput = e.isStepOutput := by
  rw [Destination.isAt_iff] at hdl hel
  obtain ⟨q, hq, hdl⟩ := hdl
  obtain ⟨g, hg, hel⟩ := hel
  cases d with
  | standardOutput => cases hq
  | file q' =>
      cases e with
      | standardOutput => cases hg
      | file _ => rfl
      | stepOutput g' =>
          cases hq; cases hg
          exact absurd ⟨l, hdl, hel, hl⟩ (h _ _ hd he)
  | stepOutput g' =>
      cases e with
      | standardOutput => cases hg
      | file q' =>
          cases hq; cases hg
          exact absurd ⟨l, hel, hdl, hl⟩ (h _ _ he hd)
      | stepOutput _ => rfl

theorem published_of_ran (hapart : Apart fs ds) (h : Ran text δ n ⟨fs, ""⟩ ds o') :
    Published fs text δ ds o' where
  stdout := by rw [h.stdout, String.empty_append]
  file q hq := by
    obtain ⟨l, hlocate, hl⟩ := h.exists_locate (.refl fs) hq rfl
    have hat : (Destination.file q).isAt fs l = true := Destination.isAt_iff.mpr ⟨q, rfl, hlocate⟩
    obtain ⟨d, hd, hdl, c, hc⟩ := h.exists_lookup? (.refl fs) ⟨_, hq, hat⟩
    have hkind : d.isStepOutput = false := hapart.isStepOutput_eq hd hq hdl hat hl
    rw [Files.standing?_of_locate (h.sameTree.locate_of_locate hlocate), hc, hkind]
    rfl
  stepOutput g hg := by
    obtain ⟨l, hlocate, hl⟩ := h.exists_locate (.refl fs) hg rfl
    have hat : (Destination.stepOutput g).isAt fs l = true := Destination.isAt_iff.mpr ⟨g, rfl, hlocate⟩
    have hkind : ∀ d ∈ ds, d.isAt fs l = true → d.isStepOutput = true :=
      fun d hd hdl => hapart.isStepOutput_eq hd hg hdl hat hl
    obtain ⟨turns, hlength, hsorted, hmem, hcontent⟩ := h.exists_entries (.refl fs) hkind
    obtain ⟨d, hd, hdl, c, hc⟩ := h.exists_lookup? (.refl fs) ⟨_, hg, hat⟩
    rw [hkind d hd hdl, if_pos rfl] at hc
    refine ⟨l, turns, hlocate, hlength, hsorted, fun k hk => (hmem k hk).2, ?_⟩
    rw [Files.standing?_of_locate (h.sameTree.locate_of_locate hlocate), ← hcontent, Files.contentAt, hc]
  elsewhere l hl := h.lookup?_eq (.refl fs) hl

theorem Published.of_perm {es : List Destination} (h : Published fs text δ ds o) (hperm : ds.Perm es) :
    Published fs text δ es o where
  stdout := by rw [h.stdout, hperm.count_eq]
  file q hq := h.file q (hperm.mem_iff.mpr hq)
  stepOutput g hg := by
    simpa only [hperm.countP_eq] using h.stepOutput g (hperm.mem_iff.mpr hg)
  elsewhere l hl := h.elsewhere l fun d hd => hl d (hperm.mem_iff.mp hd)

/-- **A publication that succeeds has written the text everywhere and touched nothing else.** Destinations come in any
number and order, and the same one may come more than once; no file that is to be replaced is a file of outputs too.
When nothing fails, standard output has got the text as a line once for each time that it is a destination, every file
holds the text, every file of outputs holds what it held and an entry for each destination that leads to it, and
everything else is as it was. -/
theorem published_of_succeeded (hapart : Apart fs ds) (h : (publish text δ fs ds).failure = none) :
    Published fs text δ ds (publish text δ fs ds).outputs := by
  have hperm := ordered_perm ds
  have hapart' : Apart fs (ordered ds) := fun q g hq hg => hapart q g (hperm.mem_iff.mp hq) (hperm.mem_iff.mp hg)
  exact (published_of_ran hapart' (ran_of_publish h)).of_perm hperm

/-- Every destination comes twice, and the files come under two names. -/
def repeated : List Destination :=
  [.stepOutput ⟨"outputs"⟩, .standardOutput, .file ⟨"copy"⟩, .stepOutput ⟨"d/../outputs"⟩, .file ⟨"./copy"⟩,
    .standardOutput]

theorem published_of_succeeded_repeated :
    Apart workplace repeated ∧ (publish "Hello" toString workplace repeated).failure = none
      ∧ Published workplace "Hello" toString repeated (publish "Hello" toString workplace repeated).outputs
      ∧ (publish "Hello" toString workplace repeated).outputs.files.standing? ⟨"outputs"⟩
        = some (.file (.text "a=1\nupdated-text<<4\nHello\n4\nupdated-text<<5\nHello\n5\n")) := by
  have hapart : Apart workplace repeated := by
    intro q g hq hg
    have hq' : workplace.locate q = .ok ["copy"] := by
      have hcases : q = ⟨"copy"⟩ ∨ q = ⟨"./copy"⟩ := by simpa [repeated] using hq
      rcases hcases with rfl | rfl <;> rfl
    have hg' : workplace.locate g = .ok ["outputs"] := by
      have hcases : g = ⟨"outputs"⟩ ∨ g = ⟨"d/../outputs"⟩ := by simpa [repeated] using hg
      rcases hcases with rfl | rfl <;> rfl
    exact Files.not_sameFile_of_locate hq' hg' (by decide)
  have hsucceeded : (publish "Hello" toString workplace repeated).failure = none := rfl
  exact ⟨hapart, hsucceeded, published_of_succeeded hapart hsucceeded, rfl⟩

end Publication

end Stencil
