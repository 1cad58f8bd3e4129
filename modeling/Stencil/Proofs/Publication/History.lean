import Stencil.Proofs.Files.Writing
import Stencil.Proofs.Publication.Entry
import Stencil.Publication

/-!
# Outputs written one after another

A write to a file of outputs either adds one entry at its end or leaves its text as it was. The text stays
readable in both cases: it is read to its end, and every line of it is ended, so that the next write starts
on a line of its own (`readable_of_written`, `readable_of_refused`).

Main statement: `ofText?_writeEach`.
-/

namespace Stencil.Outputs

open StepOutput

/-- An output as it is read: its name and its value. -/
abbrev ReadEntry := List Char × List Char

/-- The entry of a rendered text as it is read. -/
def entryOf (text : String) : ReadEntry := (outputName.toList, text.toList)

/-- Writes texts to a file of outputs one after another, each with a delimiter of its own, whether or not
the writes before have failed. The entries are those of the writes that have not. -/
def writeEach (path : Path) (o : Outputs) : List (String × String) → Outputs × List ReadEntry
  | [] => (o, [])
  | (delimiter, text) :: writes =>
      match o.write delimiter text (.stepOutput path) with
      | (o, none) => ((writeEach path o writes).1, entryOf text :: (writeEach path o writes).2)
      | (o, some _) => writeEach path o writes

/-- Whether a path holds a text that is read as some entries and can be added to. -/
def Readable (o : Outputs) (path : Path) (es : List ReadEntry) : Prop :=
  ∃ text, o.files.held? path = some text ∧ Ended text.toList ∧ ofText? text.toList = some es

/-! ## One write -/

theorem write_stepOutput (o : Outputs) (path : Path) (delimiter text : String) :
    o.write delimiter text (.stepOutput path)
      = match Destination.check o.files (.stepOutput path) with
        | some fault => (o, some fault)
        | none => o.addEntry path delimiter text := rfl

/-- What a write to a file of outputs can lead to. -/
theorem write_cases {o o' : Outputs} {path : Path} {delimiter text : String}
    {outcome : Option OutputFault}
    (h : o.write delimiter text (.stepOutput path) = (o', outcome)) :
    (∃ fault, outcome = some fault
        ∧ (o'.files = o.files ∨ o.files.append path "" = .ok o'.files))
      ∨ outcome = none ∧ ¬ delimiter.toList <:+: text.toList
        ∧ ∃ opened, o.files.append path "" = .ok opened
          ∧ opened.append path (written delimiter outputName text) = .ok o'.files := by
  rw [write_stepOutput] at h
  split at h
  · cases h
    exact .inl ⟨_, rfl, .inl rfl⟩
  · unfold addEntry at h
    split at h
    · cases h
      exact .inl ⟨_, rfl, .inl rfl⟩
    · rename_i opened ho
      split at h
      · cases h
        exact .inl ⟨_, rfl, .inr ho⟩
      · rename_i entry hc
        obtain ⟨⟨-, hv⟩, rfl⟩ := compose?_eq_ok_iff.mp hc
        split at h
        · cases h
          exact .inl ⟨_, rfl, .inr ho⟩
        · rename_i files hf
          cases h
          exact .inr ⟨rfl, hv, opened, ho, hf⟩

theorem held?_append_empty {fs gs : Files} {path : Path} {before : String}
    (h : fs.held? path = some before) (ha : fs.append path "" = .ok gs) :
    gs.held? path = some before := by
  rw [Files.held?_append h ha, String.append_empty]

/-- **A write that fails adds nothing.** -/
theorem readable_of_refused {o o' : Outputs} {path : Path} {es : List ReadEntry}
    {delimiter text : String} {fault : OutputFault} (h : Readable o path es)
    (hw : o.write delimiter text (.stepOutput path) = (o', some fault)) : Readable o' path es := by
  obtain ⟨before, hheld, hended, hread⟩ := h
  rcases write_cases hw with ⟨-, -, hsame | hopened⟩ | ⟨hnone, -⟩
  · exact ⟨before, hsame ▸ hheld, hended, hread⟩
  · exact ⟨before, held?_append_empty hheld hopened, hended, hread⟩
  · contradiction

/-- **A write that succeeds adds one entry**, with its text unchanged. -/
theorem readable_of_written {o o' : Outputs} {path : Path} {es : List ReadEntry}
    {delimiter text : String} (h : Readable o path es) (hd : '\n' ∉ delimiter.toList)
    (hw : o.write delimiter text (.stepOutput path) = (o', none)) :
    Readable o' path (es ++ [entryOf text]) := by
  obtain ⟨before, hheld, hended, hread⟩ := h
  rcases write_cases hw with ⟨fault, hsome, -⟩ | ⟨-, hv, opened, hopened, hfiles⟩
  · contradiction
  · have hname : '\n' ∉ outputName.toList ∧ '<' ∉ outputName.toList := by decide
    refine ⟨_, Files.held?_append (held?_append_empty hheld hopened) hfiles, ?_, ?_⟩
    · rw [String.toList_append]
      exact ended_append hended (ended_written delimiter outputName text)
    · rw [String.toList_append, ofText?_append hended hread, ofText?_written hd hname hv]
      rfl

/-! ## All writes -/

/-- **A text stays readable** from write to write. -/
theorem readable_writeEach {o : Outputs} {path : Path} {es : List ReadEntry}
    {writes : List (String × String)} (h : Readable o path es)
    (hd : ∀ w ∈ writes, '\n' ∉ w.1.toList) :
    Readable (writeEach path o writes).1 path (es ++ (writeEach path o writes).2) := by
  induction writes generalizing o es with
  | nil => rwa [writeEach, List.append_nil]
  | cons w writes ih =>
      obtain ⟨delimiter, text⟩ := w
      have hdelimiter : '\n' ∉ delimiter.toList := hd _ List.mem_cons_self
      have hd' : ∀ w ∈ writes, '\n' ∉ w.1.toList := fun w hw => hd w (List.mem_cons_of_mem _ hw)
      rw [writeEach]
      split
      · rename_i o' hw
        have hrun := ih (readable_of_written h hdelimiter hw) hd'
        rwa [List.append_assoc, List.singleton_append] at hrun
      · rename_i o' fault hw
        exact ih (readable_of_refused h hw) hd'

/-- Whether a file of outputs can be written. -/
def Writable (o : Outputs) (path : Path) : Prop :=
  Destination.check o.files (.stepOutput path) = none ∧ ∃ l, o.files.target path = .ok l

theorem check_append {fs gs : Files} {path : Path}
    (hh : ∀ q, fs.holds q = true → gs.holds q = true)
    (h : Destination.check fs (.stepOutput path) = none) :
    Destination.check gs (.stepOutput path) = none := by
  unfold Destination.check at h ⊢
  cases hp : (Destination.stepOutput path).path?.bind Path.parent? with
  | none => rfl
  | some directory =>
      have hholds : fs.holds directory = true := by simpa [hp] using h
      simp only [hh directory hholds, if_true]

/-- **A write to a file that can be written fails exactly when its delimiter occurs in the output.** -/
theorem write_of_writable {o : Outputs} {path : Path} (h : Writable o path)
    (delimiter text : String) :
    ∃ o', Writable o' path ∧ o.write delimiter text (.stepOutput path)
      = (o', if isAmbiguous delimiter outputName text then some (.containsDelimiter delimiter)
          else none) := by
  obtain ⟨hc, l, ht⟩ := h
  obtain ⟨opened, ho, ht', hh⟩ := Files.append_of_target ht ""
  obtain ⟨files, hf, ht'', hh'⟩ := Files.append_of_target ht' (written delimiter outputName text)
  rw [write_stepOutput, hc]
  cases ha : isAmbiguous delimiter outputName text with
  | true =>
      simp only [addEntry, ho, compose?, ha, if_true]
      exact ⟨_, ⟨check_append hh hc, l, ht'⟩, rfl⟩
  | false =>
      simp only [addEntry, ho, compose?, ha, Bool.false_eq_true, if_false, hf]
      exact ⟨_, ⟨check_append hh' (check_append hh hc), l, ht''⟩, rfl⟩

theorem entries_of_writable {o : Outputs} {path : Path} (h : Writable o path)
    (writes : List (String × String)) :
    (writeEach path o writes).2
      = (writes.filter fun w => !isAmbiguous w.1 outputName w.2).map fun w => entryOf w.2 := by
  induction writes generalizing o with
  | nil => rfl
  | cons w writes ih =>
      obtain ⟨delimiter, text⟩ := w
      obtain ⟨o', h', hw⟩ := write_of_writable h delimiter text
      rw [writeEach, hw]
      by_cases ha : isAmbiguous delimiter outputName text = true
      · simp [ha, ih h']
      · simp [ha, ih h']

/-- **No text forges, truncates or corrupts an output.** Texts are written one after another to a file of
outputs, which is empty or holds entries on lines that are all ended; no delimiter holds a newline, and
nothing else is known of them. Then the file holds a text that is read as the entries it held before and
one entry for every write that has not failed, in order and with its text unchanged. When the file can be
written at all, a write fails exactly when its delimiter occurs in the name or in the text. -/
theorem ofText?_writeEach {o : Outputs} {path : Path} {before : String} {es : List ReadEntry}
    (hheld : o.files.held? path = some before) (hended : Ended before.toList)
    (hread : ofText? before.toList = some es) {writes : List (String × String)}
    (hd : ∀ w ∈ writes, '\n' ∉ w.1.toList) :
    (∃ after, (writeEach path o writes).1.files.held? path = some after
        ∧ ofText? after.toList = some (es ++ (writeEach path o writes).2))
      ∧ (Writable o path → (writeEach path o writes).2
          = (writes.filter fun w => !isAmbiguous w.1 outputName w.2).map fun w => entryOf w.2) := by
  obtain ⟨after, hheld', -, hread'⟩ := readable_writeEach ⟨before, hheld, hended, hread⟩ hd
  exact ⟨⟨after, hheld', hread'⟩, fun h => entries_of_writable h writes⟩

/-- Texts that look like entries, the last of which holds the delimiter that it is written with. -/
def forgeries : List (String × String) :=
  [("D", "x=1\nupdated-text<<E\n"), ("E", ""), ("F", "a\nF\nupdated-text<<F")]

/-- An empty working directory. -/
def blank : Outputs := ⟨Files.empty [], ""⟩

theorem ofText?_writeEach_forgeries :
    blank.files.held? ⟨"out"⟩ = some "" ∧ Ended "".toList ∧ ofText? "".toList = some []
      ∧ (∀ w ∈ forgeries, '\n' ∉ w.1.toList) ∧ Writable blank ⟨"out"⟩
      ∧ (writeEach ⟨"out"⟩ blank forgeries).2
        = [entryOf "x=1\nupdated-text<<E\n", entryOf ""]
      ∧ ∃ after, (writeEach ⟨"out"⟩ blank forgeries).1.files.held? ⟨"out"⟩ = some after
        ∧ ofText? after.toList = some [entryOf "x=1\nupdated-text<<E\n", entryOf ""] := by
  have hheld : blank.files.held? ⟨"out"⟩ = some "" := by decide
  have hd : ∀ w ∈ forgeries, '\n' ∉ w.1.toList := by decide
  have hw : Writable blank ⟨"out"⟩ := ⟨by decide, ["out"], rfl⟩
  obtain ⟨⟨after, hafter, hread⟩, hes⟩ := ofText?_writeEach hheld (.inl rfl) rfl hd
  have hentries := hes hw
  rw [hentries] at hread
  exact ⟨hheld, .inl rfl, rfl, hd, hw, hentries, after, hafter, hread⟩

end Stencil.Outputs
