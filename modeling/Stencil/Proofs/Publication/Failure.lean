import Stencil.Proofs.Files.Standing
import Stencil.Publication

/-!
# Publications that fail

A write changes the place that its destination leads to and no other, whether it fails or not
(`Effect.standing?`). Destinations are written one after another, the file of outputs last, so what a
failed publication has changed is what the writes before the failing one have changed. The entry of a file
of outputs is added by the last write of all: when it fails, it has added nothing, and when another fails,
it has not begun.

Main statements: `standing?_of_failed` and `traceless_iff_of_failed`.
-/

namespace Stencil

@[simp] theorem Content.append_empty (c : Content) : c.append "" = c := by
  cases c <;> simp [append]

namespace Outputs

open Destination

/-! ## One write -/

/-- What a write of a text to a destination can lead to, and its fault. -/
inductive Effect (o : Outputs) (text : String) : Destination → Outputs → Option OutputFault → Prop
  /-- Nothing is written. -/
  | refused {d : Destination} (fault : OutputFault) : Effect o text d o (some fault)
  | printed : Effect o text .standardOutput { o with stdout := o.stdout ++ text ++ "\n" } none
  | replaced {q : Path} {l : Location} (h : o.files.target q = .ok l) :
      Effect o text (.file q) { o with files := o.files.put l (.file (.text text)) } none
  /-- The file is there, and no entry has been added. -/
  | opened {q : Path} {l : Location} (h : o.files.target q = .ok l) (fault : OutputFault) :
      Effect o text (.stepOutput q)
        { o with files := o.files.put l (.file (o.files.contentAt l)) } (some fault)
  | added {q : Path} {l : Location} (h : o.files.target q = .ok l) (entry : String) :
      Effect o text (.stepOutput q)
        { o with files := o.files.put l (.file ((o.files.contentAt l).append entry)) } none

/-- An entry is added to a file that can be written unless it cannot be composed. -/
theorem addEntry_of_target {o : Outputs} {q : Path} {l : Location} (h : o.files.target q = .ok l)
    (delimiter text : String) :
    o.addEntry q delimiter text
      = match StepOutput.compose? delimiter outputName text with
        | .error fault =>
            ({ o with files := o.files.put l (.file (o.files.contentAt l)) }, some fault)
        | .ok entry =>
            ({ o with files := o.files.put l (.file ((o.files.contentAt l).append entry)) }, none) := by
  have hopen : o.files.append q "" = .ok (o.files.put l (.file (o.files.contentAt l))) := by
    simp only [Files.append, h, Content.append_empty]
  have hadd : ∀ entry, (o.files.put l (.file (o.files.contentAt l))).append q entry
      = .ok (o.files.put l (.file ((o.files.contentAt l).append entry))) := by
    intro entry
    simp only [Files.append, Files.target_put h, Files.contentAt_put _ (Files.target_ne_nil h),
      Files.put_put]
  rw [addEntry, hopen]
  cases StepOutput.compose? delimiter outputName text with
  | error fault => rfl
  | ok entry => simp only [hadd]

/-- **What a write leads to.** -/
theorem effect_of_write {o o' : Outputs} {delimiter text : String} {d : Destination}
    {fault : Option OutputFault} (h : o.write delimiter text d = (o', fault)) :
    Effect o text d o' fault := by
  unfold write at h
  split at h
  · cases h
    exact .refused _
  · cases d with
    | standardOutput =>
        cases h
        exact .printed
    | file q =>
        dsimp only [Files.overwrite] at h
        cases ht : o.files.target q with
        | error f =>
            rw [ht] at h
            cases h
            exact .refused _
        | ok l =>
            rw [ht] at h
            cases h
            exact .replaced ht
    | stepOutput q =>
        cases ht : o.files.target q with
        | error f =>
            simp only [addEntry, Files.append, ht] at h
            cases h
            exact .refused _
        | ok l =>
            dsimp only at h
            -- The file is opened, and by that created, before it shows whether the entry can be composed.
            rw [addEntry_of_target ht] at h
            split at h
            · cases h
              exact .opened ht _
            · cases h
              exact .added ht _

namespace Effect

variable {o o' : Outputs} {text : String} {d : Destination} {p : Path}

theorem sameTree {fault : Option OutputFault} (h : Effect o text d o' fault) :
    o.files.SameTree o'.files := by
  cases h with
  | refused | printed => exact .refl _
  | replaced ht | opened ht _ | added ht _ => exact Files.sameTree_put ht _

/-- **A write leaves what stands elsewhere.** -/
theorem standing? {fault : Option OutputFault} (h : Effect o text d o' fault)
    (hp : ∀ q, d.path? = some q → ¬ o.files.SameFile p q) :
    o'.files.standing? p = o.files.standing? p := by
  cases h with
  | refused | printed => rfl
  | replaced ht | opened ht _ | added ht _ =>
      exact Files.standing?_put_of_not_sameFile ht (hp _ rfl) _

/-- What a file of outputs holds stays when no entry can be added to it. -/
theorem standing?_of_fault {fault : OutputFault} (h : Effect o text (.stepOutput p) o' (some fault)) :
    o'.files.standing? p = o.files.standing? p
      ∨ o.files.standing? p = none ∧ o'.files.standing? p = some (.file (.text "")) := by
  cases h with
  | refused => exact .inl rfl
  | opened ht _ => exact Files.standing?_put_contentAt ht

end Effect

end Outputs

namespace Publication

open Outputs

variable {text : String} {δ : Nat → String}

/-! ## Writing on -/

/-- What is written first, before the destinations that are left. -/
theorem writeAll_cons {o o' : Outputs} {d : Destination}
    (h : o.write (δ 0) text d = (o', none)) (ds : List Destination) :
    writeAll text δ o (d :: ds)
      = { writeAll text (fun n => δ (n + 1)) o' ds with
          written := d :: (writeAll text (fun n => δ (n + 1)) o' ds).written } := by
  rw [writeAll, h]

/-- A write that fails is the last. -/
theorem writeAll_cons_of_fault {o o' : Outputs} {d : Destination} {fault : OutputFault}
    (h : o.write (δ 0) text d = (o', some fault)) (ds : List Destination) :
    writeAll text δ o (d :: ds) = ⟨o', [], some (failureOf d fault)⟩ := by
  rw [writeAll, h]

/-! ## The file of outputs -/

/-- What has been written before the file of outputs is written leaves what it holds, and when the writes
fail then, so does the write that adds its entry. -/
theorem standing?_writeAll {p : Path} {last : List Destination}
    (hlast : last = [] ∨ last = [.stepOutput p]) {ds : List Destination} {o : Outputs}
    {f : Failure} (hds : ∀ d ∈ ds, ∀ q, d.path? = some q → ¬ o.files.SameFile p q)
    (hf : (writeAll text δ o (ds ++ last)).failure = some f) :
    (writeAll text δ o (ds ++ last)).outputs.files.standing? p = o.files.standing? p
      ∨ o.files.standing? p = none
        ∧ (writeAll text δ o (ds ++ last)).outputs.files.standing? p = some (.file (.text "")) := by
  induction ds generalizing o δ with
  | nil =>
      rw [List.nil_append] at hf ⊢
      rcases hlast with rfl | rfl
      · exact .inl rfl
      · -- Only the last write is to the file itself. It is the one that failed, and it may have opened the
        -- file.
        obtain ⟨o', _ | fault, hw⟩ : ∃ o' r, o.write (δ 0) text (.stepOutput p) = (o', r) :=
          ⟨_, _, rfl⟩
        · rw [writeAll_cons hw] at hf
          contradiction
        · rw [writeAll_cons_of_fault hw]
          exact (effect_of_write hw).standing?_of_fault
  | cons d ds ih =>
      obtain ⟨o', r, hw⟩ : ∃ o' r, o.write (δ 0) text d = (o', r) := ⟨_, _, rfl⟩
      have hfirst := (effect_of_write hw).standing? (hds d List.mem_cons_self)
      rw [List.cons_append] at hf ⊢
      cases r with
      | some fault =>
          rw [writeAll_cons_of_fault hw]
          exact .inl hfirst
      | none =>
          rw [writeAll_cons hw] at hf ⊢
          -- What paths name does not change on the way, so that the other destinations stay other files.
          have htree := (effect_of_write hw).sameTree
          have hrest : ∀ d ∈ ds, ∀ q, d.path? = some q → ¬ o'.files.SameFile p q := by
            intro d hd q hq
            rw [htree.sameFile_iff]
            exact hds d (List.mem_cons_of_mem _ hd) q hq
          rw [← hfirst]
          exact ih hrest hf

/-- The only file of outputs among destinations comes last and alone. -/
theorem stepOutputs_eq {ds : List Destination} {p : Path} (hone : ds.countP (·.isStepOutput) ≤ 1)
    (hp : ∀ q, .stepOutput q ∈ ds → q = p) :
    ds.filter (·.isStepOutput) = [] ∨ ds.filter (·.isStepOutput) = [.stepOutput p] := by
  rw [List.countP_eq_length_filter] at hone
  match hfilter : ds.filter (·.isStepOutput) with
  | [] => exact .inl hfilter
  | [d] =>
      have hd : d ∈ ds ∧ d.isStepOutput = true :=
        List.mem_filter.mp (hfilter ▸ List.mem_singleton_self d)
      cases d with
      | standardOutput | file _ => exact absurd hd.2 Bool.false_ne_true
      | stepOutput q =>
          rw [hp q hd.1] at hfilter
          exact .inr hfilter
  | _ :: _ :: _ =>
      rw [hfilter] at hone
      simp at hone

/-- **A publication that fails leaves no entry behind.** Destinations in any number and order have at most
one file of outputs among them, and no other of their files is the same. When the publication fails,
whichever check or write it is that fails, the file of outputs holds what it held before, or it is empty
and did not exist. -/
theorem standing?_of_failed {fs : Files} {ds : List Destination} {p : Path} {f : Failure}
    (hone : ds.countP (·.isStepOutput) ≤ 1) (hp : ∀ q, .stepOutput q ∈ ds → q = p)
    (hfile : ∀ q, .file q ∈ ds → ¬ fs.SameFile p q)
    (hf : (publish text δ fs ds).failure = some f) :
    (publish text δ fs ds).outputs.files.standing? p = fs.standing? p
      ∨ fs.standing? p = none
        ∧ (publish text δ fs ds).outputs.files.standing? p = some (.file (.text "")) := by
  unfold publish at hf ⊢
  split
  · exact .inl rfl
  · rename_i hc
    rw [hc] at hf
    have hothers : ∀ d ∈ ds.filter (!·.isStepOutput), ∀ q, d.path? = some q →
        ¬ fs.SameFile p q := by
      intro d hd q hq
      obtain ⟨hmem, hkind⟩ := List.mem_filter.mp hd
      cases d with
      | standardOutput => contradiction
      | stepOutput => contradiction
      | file q' =>
          obtain rfl := Option.some.inj hq
          exact hfile _ hmem
    exact standing?_writeAll (stepOutputs_eq hone hp) (o := ⟨fs, ""⟩) hothers hf

/-- A working directory with a directory in it and a file of outputs that holds an entry. -/
def workplace : Files :=
  ((Files.empty []).add ⟨"d"⟩ .directory).add ⟨"outputs"⟩ (.file (.text "a=1\n"))

/-- The file of outputs comes first, and the last destination is a directory. -/
def blocked : List Destination := [.stepOutput ⟨"outputs"⟩, .file ⟨"copy"⟩, .file ⟨"d"⟩]

theorem standing?_of_failed_blocked :
    (publish "Hello" (fun _ => "D") workplace blocked).failure
        = some (.output "d" (.file .isDirectory))
      ∧ (publish "Hello" (fun _ => "D") workplace blocked).written = [.file ⟨"copy"⟩]
      ∧ (publish "Hello" (fun _ => "D") workplace blocked).outputs.files.standing? ⟨"outputs"⟩
        = some (.file (.text "a=1\n")) := by
  have hf : (publish "Hello" (fun _ => "D") workplace blocked).failure
      = some (.output "d" (.file .isDirectory)) := rfl
  have hfile : ∀ q, .file q ∈ blocked → ¬ workplace.SameFile ⟨"outputs"⟩ q := by
    intro q hq
    have hq' : q = ⟨"copy"⟩ ∨ q = ⟨"d"⟩ := by simpa [blocked] using hq
    rcases hq' with rfl | rfl
    · exact Files.not_sameFile_of_locate (l := ["outputs"]) (m := ["copy"]) rfl rfl (by decide)
    · exact Files.not_sameFile_of_locate (l := ["outputs"]) (m := ["d"]) rfl rfl (by decide)
  rcases standing?_of_failed (p := ⟨"outputs"⟩) (by decide) (by simp [blocked]) hfile hf with h | h
  · exact ⟨hf, rfl, h⟩
  · exact absurd h.1 (by decide)

/-! ## Traces -/

section Traces

variable (fs : Files) (stepOutput : Option Path)

/-- Whether a path does not lead to the file of outputs. -/
def Elsewhere (q : Path) : Prop := ∀ g, stepOutput = some g → ¬ fs.SameFile q g

/-- Whether nothing has gone to standard output and what stood anywhere still stands there, but in the
file of outputs. -/
def Traceless (o : Outputs) : Prop :=
  o.stdout = "" ∧ ∀ q, Elsewhere fs stepOutput q → o.files.standing? q = fs.standing? q

/-- Whether something has gone to standard output, or a text stands where another thing stood. -/
def Traced (text : String) (o : Outputs) : Prop :=
  o.stdout ≠ "" ∨ ∃ q, Elsewhere fs stepOutput q ∧ fs.standing? q ≠ some (.file (.text text))
    ∧ o.files.standing? q = some (.file (.text text))

/-- Whether a text that is written to a destination leaves no trace: its file holds the text already, or
is the file of outputs. -/
def Idle (text : String) (d : Destination) : Prop :=
  ∃ q, d.path? = some q
    ∧ (fs.standing? q = some (.file (.text text)) ∨ ¬ Elsewhere fs stepOutput q)

end Traces

variable {fs : Files} {stepOutput : Option Path} {o o' : Outputs} {d : Destination}

theorem not_traceless_of_traced (h : Traced fs stepOutput text o) : ¬ Traceless fs stepOutput o := by
  rintro ⟨hout, hstanding⟩
  rcases h with h | ⟨q, hq, hne, htext⟩
  · exact h hout
  · exact hne ((hstanding q hq).symm.trans htext)

/-- What is written to the file of outputs leaves what stands elsewhere. -/
theorem standing?_put_stepOutput (htree : fs.SameTree o.files) {g q : Path} {l : Location}
    (ht : o.files.target g = .ok l) (hg : stepOutput = some g) (hq : Elsewhere fs stepOutput q)
    (c : Content) : (o.files.put l (.file c)).standing? q = o.files.standing? q :=
  Files.standing?_put_of_not_sameFile ht (mt htree.sameFile_iff.mp (hq g hg)) c

/-- **A trace stays**: a text is only ever written over by itself. -/
theorem traced_of_effect {fault : Option OutputFault} (he : Effect o text d o' fault)
    (htree : fs.SameTree o.files) (hd : ∀ g, d = .stepOutput g → stepOutput = some g)
    (h : Traced fs stepOutput text o) : Traced fs stepOutput text o' := by
  rcases h with hout | ⟨q, hq, hne, htext⟩
  · left
    cases he with
    | printed => simp
    | refused | replaced | opened | added => exact hout
  · right
    refine ⟨q, hq, hne, ?_⟩
    cases he with
    | refused | printed => exact htext
    | @replaced q' l ht =>
        by_cases hl : o.files.locate q = .ok l
        · exact Files.standing?_put_of_locate ht hl _
        · exact (Files.standing?_put_of_ne ht hl _).trans htext
    | opened ht _ | added ht _ =>
        exact (standing?_put_stepOutput htree ht (hd _ rfl) hq _).trans htext

/-- A write that fails leaves no trace. -/
theorem traceless_of_fault {fault : OutputFault} (he : Effect o text d o' (some fault))
    (htree : fs.SameTree o.files) (hd : ∀ g, d = .stepOutput g → stepOutput = some g)
    (h : Traceless fs stepOutput o) : Traceless fs stepOutput o' := by
  cases he with
  | refused => exact h
  | opened ht _ =>
      refine ⟨h.1, fun q hq => ?_⟩
      exact (standing?_put_stepOutput htree ht (hd _ rfl) hq _).trans (h.2 q hq)

/-- A text that a file holds already leaves no trace in it. -/
theorem traceless_replaced {q : Path} {l : Location} (ht : o.files.target q = .ok l)
    (htree : fs.SameTree o.files) (hi : Idle fs stepOutput text (.file q))
    (h : Traceless fs stepOutput o) :
    Traceless fs stepOutput { o with files := o.files.put l (.file (.text text)) } := by
  refine ⟨h.1, fun r hr => ?_⟩
  rw [← h.2 r hr]
  by_cases hq : Elsewhere fs stepOutput q
  · obtain ⟨q', hq', htext | hsame⟩ := hi
    · obtain rfl := Option.some.inj hq'
      exact Files.standing?_put_of_standing ht ((h.2 q hq).trans htext) r
    · obtain rfl := Option.some.inj hq'
      exact absurd hq hsame
  · refine Files.standing?_put_of_not_sameFile ht (fun hsame => hq fun g hg hqg => ?_) _
    exact hr g hg ((htree.sameFile_iff.mp hsame).trans hqg)

/-- **A write leaves a trace exactly when its destination is not idle.** -/
theorem traceless_or_traced (he : Effect o text d o' none) (htree : fs.SameTree o.files)
    (hd : ∀ g, d = .stepOutput g → stepOutput = some g) (h : Traceless fs stepOutput o) :
    Idle fs stepOutput text d ∧ Traceless fs stepOutput o'
      ∨ ¬ Idle fs stepOutput text d ∧ Traced fs stepOutput text o' := by
  cases he with
  | printed =>
      refine .inr ⟨?_, .inl (by simp)⟩
      rintro ⟨q, hq, -⟩
      contradiction
  | @added g l ht entry =>
      have hsame : fs.SameFile g g :=
        htree.sameFile_iff.mp (Files.sameFile_of_target (Files.locate_of_target ht) ht)
      refine .inl ⟨⟨g, rfl, .inr fun hg => hg g (hd g rfl) hsame⟩, h.1, fun q hq => ?_⟩
      exact (standing?_put_stepOutput htree ht (hd g rfl) hq _).trans (h.2 q hq)
  | @replaced q l ht =>
      by_cases hi : Idle fs stepOutput text (.file q)
      · exact .inl ⟨hi, traceless_replaced ht htree hi h⟩
      · refine .inr ⟨hi, .inr ⟨q, ?_, ?_, Files.standing?_put_self ht _⟩⟩
        · exact fun g hg hsame => hi ⟨q, rfl, .inr fun hq => hq g hg hsame⟩
        · exact fun htext => hi ⟨q, rfl, .inl htext⟩

/-! ## A run of writes -/

theorem traced_writeAll {ds : List Destination} {o : Outputs} (htree : fs.SameTree o.files)
    (hds : ∀ g, .stepOutput g ∈ ds → stepOutput = some g) (h : Traced fs stepOutput text o) :
    Traced fs stepOutput text (writeAll text δ o ds).outputs := by
  induction ds generalizing o δ with
  | nil => exact h
  | cons d ds ih =>
      obtain ⟨o', r, hw⟩ : ∃ o' r, o.write (δ 0) text d = (o', r) := ⟨_, _, rfl⟩
      have he := effect_of_write hw
      have hd : ∀ g, d = .stepOutput g → stepOutput = some g :=
        fun g hg => hds g (hg ▸ List.mem_cons_self)
      have hnext := traced_of_effect he htree hd h
      cases r with
      | some fault => rwa [writeAll_cons_of_fault hw]
      | none =>
          rw [writeAll_cons hw]
          exact ih (htree.trans he.sameTree) (fun g hg => hds g (List.mem_cons_of_mem _ hg)) hnext

/-- **Writes leave no trace exactly when all the destinations that are written are idle.** -/
theorem traceless_writeAll_iff {ds : List Destination} {o : Outputs} (htree : fs.SameTree o.files)
    (hds : ∀ g, .stepOutput g ∈ ds → stepOutput = some g) (h : Traceless fs stepOutput o) :
    Traceless fs stepOutput (writeAll text δ o ds).outputs
      ↔ ∀ d ∈ (writeAll text δ o ds).written, Idle fs stepOutput text d := by
  induction ds generalizing o δ with
  | nil => simpa [writeAll] using h
  | cons d ds ih =>
      obtain ⟨o', r, hw⟩ : ∃ o' r, o.write (δ 0) text d = (o', r) := ⟨_, _, rfl⟩
      have he := effect_of_write hw
      have hd : ∀ g, d = .stepOutput g → stepOutput = some g :=
        fun g hg => hds g (hg ▸ List.mem_cons_self)
      have hds' : ∀ g, .stepOutput g ∈ ds → stepOutput = some g :=
        fun g hg => hds g (List.mem_cons_of_mem _ hg)
      have htree' := htree.trans he.sameTree
      cases r with
      | some fault =>
          rw [writeAll_cons_of_fault hw]
          simpa using traceless_of_fault he htree hd h
      | none =>
          rw [writeAll_cons hw, List.forall_mem_cons]
          -- No later write takes a trace back, so the first one that leaves a trace decides.
          rcases traceless_or_traced he htree hd h with ⟨hi, hnext⟩ | ⟨hi, hnext⟩
          · exact (ih htree' hds' hnext).trans (and_iff_right hi).symm
          · have htraced : Traced fs stepOutput text
                (writeAll text (fun n => δ (n + 1)) o' ds).outputs :=
              traced_writeAll htree' hds' hnext
            exact iff_of_false (not_traceless_of_traced htraced) fun hall => hi hall.1

/-- The destinations that are written before a write fails are the first ones. -/
theorem written_of_failed {ds : List Destination} {o : Outputs} {f : Failure}
    (hf : (writeAll text δ o ds).failure = some f) :
    ∃ d rest, ds = (writeAll text δ o ds).written ++ d :: rest := by
  induction ds generalizing o δ with
  | nil => contradiction
  | cons d ds ih =>
      obtain ⟨o', r, hw⟩ : ∃ o' r, o.write (δ 0) text d = (o', r) := ⟨_, _, rfl⟩
      cases r with
      | some fault => exact ⟨d, ds, by rw [writeAll_cons_of_fault hw, List.nil_append]⟩
      | none =>
          rw [writeAll_cons hw] at hf ⊢
          obtain ⟨d', rest, hrest⟩ := ih hf
          exact ⟨d', rest, by rw [List.cons_append, ← hrest]⟩

/-! ## The destinations of a run -/

theorem stepOutput_of_mem_ofRunner {runner : Runner} {outputFile : Option Path} {g : Path}
    (h : .stepOutput g ∈ Destination.ofRunner runner outputFile) : runner.outputFile = some g := by
  unfold Destination.ofRunner at h
  cases hr : runner.outputFile <;> cases outputFile <;> simp_all

/-- Destinations are written in another order, and nothing is lost. -/
theorem ordered_perm (ds : List Destination) : (ordered ds).Perm ds := by
  have h := List.filter_append_perm (·.isStepOutput) ds
  exact List.perm_append_comm.trans h

theorem mem_of_mem_ordered {ds : List Destination} (h : d ∈ ordered ds) : d ∈ ds :=
  (ordered_perm ds).mem_iff.mp h

/-- Every run has a destination that is written first. -/
theorem exists_ordered_ofRunner (runner : Runner) (outputFile : Option Path) :
    ∃ d rest, ordered (Destination.ofRunner runner outputFile) = d :: rest := by
  unfold Destination.ofRunner ordered
  cases runner.outputFile <;> cases outputFile <;> exact ⟨_, _, rfl⟩

/-- **What a publication that fails leaves behind.** The destinations that it has written are the first
ones in order, up to the one that fails. Nothing has gone to standard output and every file but the file
of outputs is as it was, exactly when each of them held the text already or was the file of outputs itself.
So a failed check leaves no trace, but a write can fail although its destination has passed the check. -/
theorem traceless_iff_of_failed {runner : Runner} {outputFile : Option Path} {f : Failure}
    (hf : (publish text δ fs (Destination.ofRunner runner outputFile)).failure = some f) :
    (∃ d rest, ordered (Destination.ofRunner runner outputFile)
        = (publish text δ fs (Destination.ofRunner runner outputFile)).written ++ d :: rest)
      ∧ (Traceless fs runner.outputFile
          (publish text δ fs (Destination.ofRunner runner outputFile)).outputs
        ↔ ∀ d ∈ (publish text δ fs (Destination.ofRunner runner outputFile)).written,
          Idle fs runner.outputFile text d) := by
  have hstart : Traceless fs runner.outputFile ⟨fs, ""⟩ := ⟨rfl, fun _ _ => rfl⟩
  unfold publish at hf ⊢
  cases hc : checkAll fs (Destination.ofRunner runner outputFile) with
  | some failure =>
      exact ⟨exists_ordered_ofRunner runner outputFile,
        iff_of_true hstart fun d hd => absurd hd List.not_mem_nil⟩
  | none =>
      rw [hc] at hf
      exact ⟨written_of_failed hf, traceless_writeAll_iff (.refl fs)
        (fun g hg => stepOutput_of_mem_ofRunner (mem_of_mem_ordered hg)) hstart⟩

/-- A run outside of a workflow. -/
def terminal : Runner where
  inActions := false
  debug := false
  outputFile := none

/-- The text is printed before a directory is found where it is to be written. -/
theorem printed_before_failure :
    checkAll workplace (Destination.ofRunner terminal (some ⟨"d"⟩)) = none
      ∧ (publish "Hello" (fun _ => "D") workplace
          (Destination.ofRunner terminal (some ⟨"d"⟩))).failure
        = some (.output "d" (.file .isDirectory))
      ∧ (publish "Hello" (fun _ => "D") workplace
          (Destination.ofRunner terminal (some ⟨"d"⟩))).outputs.stdout = "Hello\n" :=
  ⟨rfl, rfl, rfl⟩

/-- A step whose outputs are to go where a directory is. -/
def misled : Runner := { terminal with inActions := true, outputFile := some ⟨"d"⟩ }

theorem traceless_iff_of_failed_misled :
    (publish "Hello" (fun _ => "D") workplace
        (Destination.ofRunner misled (some ⟨"copy"⟩))).failure
        = some (.output "GITHUB_OUTPUT (d)" (.file .isDirectory))
      ∧ ¬ Traceless workplace (some ⟨"d"⟩) (publish "Hello" (fun _ => "D") workplace
        (Destination.ofRunner misled (some ⟨"copy"⟩))).outputs := by
  have hf : (publish "Hello" (fun _ => "D") workplace
      (Destination.ofRunner misled (some ⟨"copy"⟩))).failure
        = some (.output "GITHUB_OUTPUT (d)" (.file .isDirectory)) := rfl
  refine ⟨hf, fun htrace => ?_⟩
  obtain ⟨q, hq, htext | hsame⟩ :=
    (traceless_iff_of_failed hf).2.mp htrace (.file ⟨"copy"⟩) (by decide)
  · obtain rfl := Option.some.inj hq
    exact absurd htext (by decide)
  · obtain rfl := Option.some.inj hq
    refine hsame fun g hg => ?_
    obtain rfl := Option.some.inj hg
    exact Files.not_sameFile_of_locate (l := ["copy"]) (m := ["d"]) rfl rfl (by decide)

end Publication

end Stencil
