import Stencil.Files.Path

/-!
# Files

The files that a run can see, as a value: what stands at each location of a tree of directories. A path
is followed segment by segment from the top or from the working directory. Reading and writing fail
in the ways the operating system knows; a write that fails changes nothing.

Main statements: putting something at a location is seen there and nowhere else (`lookup?_put`), and a
location that a path leads to for writing is no directory (`not_directory_of_target`).
-/

namespace Stencil

/-- What a file holds: a text, or bytes that are no text. -/
inductive Content where
  | text (s : String)
  | binary (bytes : List UInt8)
  deriving DecidableEq, Repr

namespace Content

def ofBytes (bytes : List UInt8) : Content :=
  match String.fromUTF8? ⟨bytes.toArray⟩ with
  | some s => .text s
  | none => .binary bytes

/-- Content with a text added at its end. -/
def append : Content → String → Content
  | .text s, more => .text (s ++ more)
  | .binary bytes, more => .binary (bytes ++ more.toUTF8.data.toList)

@[simp] theorem append_text (s more : String) : append (.text s) more = .text (s ++ more) := rfl

end Content

/-- Why a file cannot be read or written. -/
inductive FileFault where
  | missing
  | notDirectory
  | isDirectory
  | nameTooLong
  | nulInName
  | notText
  deriving DecidableEq, Repr

def FileFault.message : FileFault → String
  | .missing => "No such file or directory (os error 2)"
  | .notDirectory => "Not a directory (os error 20)"
  | .isDirectory => "Is a directory (os error 21)"
  | .nameTooLong => "File name too long (os error 36)"
  | .nulInName => "file name contained an unexpected NUL byte"
  | .notText => "stream did not contain valid UTF-8"

/-- A place in the tree: the names that lead to it, the innermost first. -/
abbrev Location := List String

/-- What stands at a location. -/
inductive Entry where
  | file (content : Content)
  | directory
  deriving DecidableEq, Repr

/-- The files of a tree and the directory that paths start from. -/
structure Files where
  entries : List (Location × Entry)
  here : Location
  deriving Repr

namespace Files

/-- What the first entry for a location says. -/
def entryIn : List (Location × Entry) → Location → Option Entry
  | [], _ => none
  | (place, e) :: rest, l => if place = l then some e else entryIn rest l

/-- What stands at a location. The top is a directory. -/
def lookup? (fs : Files) (l : Location) : Option Entry :=
  if l = [] then some .directory else entryIn fs.entries l

/-- Changes the entry for a location, or adds one. -/
def putIn : List (Location × Entry) → Location → Entry → List (Location × Entry)
  | [], l, new => [(l, new)]
  | (place, e) :: rest, l, new =>
      if place = l then (l, new) :: rest else (place, e) :: putIn rest l new

/-- The files with something put at a location. -/
def put (fs : Files) (l : Location) (e : Entry) : Files :=
  { fs with entries := putIn fs.entries l e }

def isDirectory (fs : Files) (l : Location) : Bool := fs.lookup? l == some .directory

theorem entryIn_putIn (entries : List (Location × Entry)) (a b : Location) (e : Entry) :
    entryIn (putIn entries a e) b = if a = b then some e else entryIn entries b := by
  induction entries with
  | nil => simp [putIn, entryIn]
  | cons x rest ih =>
      obtain ⟨place, old⟩ := x
      by_cases hk : place = a
      · subst hk; by_cases hb : place = b <;> simp [putIn, entryIn, hb]
      · by_cases hb : place = b
        · subst hb; simp [putIn, entryIn, hk, Ne.symm hk]
        · simp [putIn, entryIn, hk, hb, ih]

/-- **What putting something changes**: its location, unless that is the top. -/
theorem lookup?_put (fs : Files) {a : Location} (ha : a ≠ []) (b : Location) (e : Entry) :
    (fs.put a e).lookup? b = if a = b then some e else fs.lookup? b := by
  unfold lookup? put
  by_cases hb : b = []
  · simp [hb, ha]
  · simp [hb, entryIn_putIn]

/-! ## Following paths -/

/-- The longest name that an entry can have, in bytes. -/
def nameLimit : Nat := 255

/-- One more than the longest path, in bytes. -/
def pathLimit : Nat := 4096

/-- What is wrong with a location that is to be entered and is no directory. -/
def blocked (fs : Files) (l : Location) : FileFault :=
  if (fs.lookup? l).isNone then .missing else .notDirectory

/-- Follows segments down from a location; each needs a directory to start in. -/
def walk (fs : Files) (l : Location) : List String → Except FileFault Location
  | [] => .ok l
  | s :: rest =>
      if !fs.isDirectory l then .error (fs.blocked l)
      else if Path.isIdle s then fs.walk l rest
      else if s = ".." then fs.walk l.tail rest
      else if nameLimit < s.utf8ByteSize then .error .nameTooLong
      else fs.walk (s :: l) rest

/-- What keeps a path from being followed at all. -/
def refusal? (p : Path) : Option FileFault :=
  if '\x00' ∈ p.text.toList then some .nulInName
  else if p.text = "" then some .missing
  else if pathLimit ≤ p.text.utf8ByteSize then some .nameTooLong
  else none

/-- The directory that a path starts from. -/
def start (fs : Files) (p : Path) : Location := if p.isAbsolute then [] else fs.here

/-- The location that a path leads to. Nothing need stand there. -/
def locate (fs : Files) (p : Path) : Except FileFault Location :=
  match refusal? p with
  | some f => .error f
  | none => fs.walk (fs.start p) p.segments

/-- Whether something stands where a path leads. -/
def holds (fs : Files) (p : Path) : Bool :=
  match fs.locate p with
  | .ok l => (fs.lookup? l).isSome
  | .error _ => false

/-! ## Reading -/

/-- The text of the file that a path leads to. -/
def read (fs : Files) (p : Path) : Except FileFault String :=
  match fs.locate p with
  | .error f => .error f
  | .ok l =>
      match fs.lookup? l with
      | none => .error .missing
      | some .directory => .error .isDirectory
      | some (.file (.binary _)) => .error .notText
      | some (.file (.text s)) => .ok s

/-! ## Writing -/

/-- The location of a name in a directory, for a file that is written there. A name with a slash after
it is one of a directory, and so are dots. -/
def fileIn (fs : Files) (l : Location) (name : String) (slashed : Bool) :
    Except FileFault Location :=
  if !fs.isDirectory l then .error (fs.blocked l)
  else if slashed ∨ name = "." ∨ name = ".." then .error .isDirectory
  else if nameLimit < name.utf8ByteSize then .error .nameTooLong
  else if fs.isDirectory (name :: l) then .error .isDirectory
  else .ok (name :: l)

/-- The location that a path names for a file that is written, in the directory that all of its segments
but the last lead to. -/
def target (fs : Files) (p : Path) : Except FileFault Location :=
  match refusal? p with
  | some f => .error f
  | none =>
      match p.segments.reverse.dropWhile (· == "") with
      | [] => .error .isDirectory
      | name :: up =>
          match fs.walk (fs.start p) up.reverse with
          | .error f => .error f
          | .ok l => fs.fileIn l name (p.text.toList.getLast? == some '/')

/-- What a location holds, and nothing when no file stands there. -/
def contentAt (fs : Files) (l : Location) : Content :=
  match fs.lookup? l with
  | some (.file c) => c
  | _ => .text ""

/-- The files after a text has replaced what a path holds. -/
def overwrite (fs : Files) (p : Path) (text : String) : Except FileFault Files :=
  match fs.target p with
  | .error f => .error f
  | .ok l => .ok (fs.put l (.file (.text text)))

/-- The files after a text has been added to what a path holds. -/
def append (fs : Files) (p : Path) (text : String) : Except FileFault Files :=
  match fs.target p with
  | .error f => .error f
  | .ok l => .ok (fs.put l (.file ((fs.contentAt l).append text)))

theorem fileIn_eq_ok {fs : Files} {l m : Location} {name : String} {slashed : Bool}
    (h : fs.fileIn l name slashed = .ok m) :
    m = name :: l ∧ fs.isDirectory l = true ∧ fs.isDirectory m = false := by
  unfold fileIn at h
  repeat' split at h
  all_goals simp_all

theorem target_eq_ok {fs : Files} {p : Path} {m : Location} (h : fs.target p = .ok m) :
    ∃ name l slashed, fs.fileIn l name slashed = .ok m := by
  unfold target at h
  repeat' split at h
  all_goals first | contradiction | exact ⟨_, _, _, h⟩

theorem target_ne_nil {fs : Files} {p : Path} {l : Location} (h : fs.target p = .ok l) : l ≠ [] := by
  obtain ⟨name, dir, slashed, hf⟩ := target_eq_ok h
  simp [(fileIn_eq_ok hf).1]

/-- **A file is never written over a directory.** -/
theorem not_directory_of_target {fs : Files} {p : Path} {l : Location} (h : fs.target p = .ok l) :
    fs.isDirectory l = false := by
  obtain ⟨name, dir, slashed, hf⟩ := target_eq_ok h
  exact (fileIn_eq_ok hf).2.2

/-! ## Building and listing -/

/-- The files with a directory at a location and at all above it. -/
def addDirectory (fs : Files) : Location → Files
  | [] => fs
  | name :: up =>
      let fs := fs.addDirectory up
      if (fs.lookup? (name :: up)).isSome then fs else fs.put (name :: up) .directory

/-- The tree that holds a working directory and nothing in it. -/
def empty (here : Location) : Files := (⟨[], here⟩ : Files).addDirectory here

/-- The files with something added at the end of steps that go down from the working directory. -/
def add (fs : Files) (p : Path) (e : Entry) : Files :=
  match p.steps.filter (· != ".") with
  | [] => fs
  | name :: up =>
      let l := up ++ fs.here
      (fs.addDirectory l).put (name :: l) e

/-- The way from one location down to another, if there is one. -/
def below? (top l : Location) : Option Path :=
  if l.drop (l.length - top.length) = top then
    some (Path.ofSegments (l.take (l.length - top.length)).reverse)
  else none

/-- All files below the working directory with their paths from there. -/
def listing (fs : Files) : List (Path × Content) :=
  fs.entries.filterMap fun (l, e) =>
    match e with
    | .directory => none
    | .file c => (below? fs.here l).map fun p => (p, c)

end Files

end Stencil
