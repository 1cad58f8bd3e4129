import Stencil.Members
import Stencil.Template.Function

/-!
# The store of an evaluation

What changes while a template is filled: the frames with the names that are assigned, the states of
the loops, the members of namespaces, and the pile of operands. Everything else an evaluation needs is
fixed.

A name is looked for in the frames from the innermost outwards, and among the functions last. The
values that macros keep are in closures, which a frame shares with the macros that are defined in it:
an assignment in the frame reaches them too.

Operations take their operands from the top of a pile. A call that is performed and an import leave a
value there, and so may a loop that is entered again; where that happens between two operands of an
operation, it takes the value that was left for one of them.
-/

namespace Stencil.Template

/-- What shows through below the names of a frame. -/
inductive Ground where
  | nothing
  /-- The variables the template is filled with. -/
  | vars
  /-- The names that a macro keeps. -/
  | closure (id : Nat)

/-- The loop of a frame. -/
inductive FrameLoop where
  | none
  /-- The items of a loop are being picked. -/
  | picking
  /-- The loop of an identifier is running. -/
  | running (id : Nat)
  deriving DecidableEq, Repr

/-- Names that are assigned together. -/
structure Frame where
  locals : Members Value
  /-- The loop that the name `loop` stands for, if it is running. -/
  loop : FrameLoop
  /-- The closure of the macros that are defined here. -/
  closure : Option Nat
  ground : Ground

/-- A frame without names. -/
def Frame.empty : Frame := ⟨[], .none, none, .nothing⟩

/-- The state of a loop. -/
structure LoopState where
  /-- The number of the loop, if it can be entered again. -/
  again : Option Nat
  index : Nat
  length : Option Nat
  depth : Nat
  previous : Value
  next : Value
  /-- The values that were asked about last. -/
  seen : Option (List Value)

/-- What changes while a template is filled. -/
structure Store where
  /-- The frames, the innermost first. -/
  frames : List Frame
  /-- The depth of nesting outside of the frames. -/
  outer : Nat
  /-- The loops that are running, the innermost first. -/
  loops : List (Nat × LoopState)
  /-- The loops that have ended, which values may still refer to. -/
  ended : List (Nat × LoopState)
  closures : List (Nat × Members Value)
  spaces : List (Nat × Members Value)
  /-- The operands that operations take their values from, the latest first. -/
  pile : List Value
  /-- An identifier that nothing has yet. -/
  fresh : Nat

def Store.start : Store := ⟨[{ Frame.empty with ground := .vars }], 0, [], [], [], [], [], 0⟩

namespace Store

/-! ## Looking up names -/

def inFrame? (vars : String → Option Value) (closures : List (Nat × Members Value))
    (name : String) (f : Frame) : Option Value :=
  match Members.get? f.locals name with
  | some v => some v
  | none =>
      match name, f.loop with
      | "loop", .running id => some (.loop id)
      | name, _ =>
          match f.ground with
          | .nothing => none
          | .vars => vars name
          | .closure id => (closures.lookup id).bind fun kept => Members.get? kept name

/-- The value of a name. -/
def lookup? (vars : String → Option Value) (st : Store) (name : String) : Option Value :=
  match st.frames.findSome? (inFrame? vars st.closures name) with
  | some v => some v
  | none => (Function.ofName? name).map .function

/-! ## Assigning names -/

/-- Changes the entry of an identifier. -/
def change {α : Type} (id : Nat) (f : α → α) : List (Nat × α) → List (Nat × α)
  | [] => []
  | (k, v) :: rest => if k = id then (k, f v) :: rest else (k, v) :: change id f rest

/-- A value that is from somewhere; one that is from nowhere yet is made here. -/
def settle (st : Store) (v : Value) : Store × Value :=
  if v.isRootless then ({ st with fresh := st.fresh + 1 }, v.rooted (.made st.fresh) []) else (st, v)

/-- Assigns a name in the innermost frame and in its closure. -/
def assign (st : Store) (name : String) (value : Value) : Store :=
  let (st, value) := st.settle value
  match st.frames with
  | [] => st
  | f :: fs =>
      let closures := match f.closure with
        | some id => change id (fun kept => Members.insert kept name value) st.closures
        | none => st.closures
      { st with frames := { f with locals := Members.insert f.locals name value } :: fs, closures }

/-- Gives the innermost frame a closure if it has none, and tells which it has. -/
def withClosure (st : Store) : Store × Nat :=
  match st.frames with
  | [] => (st, st.fresh)
  | f :: fs =>
      match f.closure with
      | some id => (st, id)
      | none =>
          ({ st with frames := { f with closure := some st.fresh } :: fs
                     closures := (st.fresh, []) :: st.closures
                     fresh := st.fresh + 1 }, st.fresh)

/-- Keeps the present value of a name in a closure, unless the closure has the name. -/
def keep (vars : String → Option Value) (id : Nat) (st : Store) (name : String) : Store :=
  let value := (st.lookup? vars name).getD .undefined
  { st with closures := change id (fun kept =>
      if (Members.get? kept name).isSome then kept else Members.insert kept name value) st.closures }

/-! ## Frames -/

/-- How deep frames may nest. -/
def maxDepth : Nat := 500

/-- How deep the evaluation is nested. -/
def depth (st : Store) : Nat := st.outer + st.frames.length

/-- Enters a frame; none if the evaluation is nested too deeply. -/
def enter? (st : Store) (f : Frame) : Option Store :=
  if st.depth > maxDepth then none else some { st with frames := f :: st.frames }

def leave (st : Store) : Store := { st with frames := st.frames.drop 1 }

/-- Forgets the names of the innermost frame. -/
def clear (st : Store) : Store :=
  match st.frames with
  | [] => st
  | f :: fs => { st with frames := { f with locals := [] } :: fs }

/-! ## The pile -/

def push (st : Store) (v : Value) : Store := { st with pile := v :: st.pile }

/-- Takes so many values off the pile, in the order in which they were put there. -/
def pop (st : Store) (n : Nat) : Store × List Value :=
  ({ st with pile := st.pile.drop n }, (st.pile.take n).reverse)

/-! ## Loops -/

def currentLoop (st : Store) : FrameLoop :=
  ((st.frames.find? fun f => f.loop != .none).map Frame.loop).getD .none

def loop? (st : Store) (id : Nat) : Option LoopState :=
  match st.loops.lookup id with
  | some l => some l
  | none => st.ended.lookup id

def changeLoop (st : Store) (id : Nat) (f : LoopState → LoopState) : Store :=
  if (st.loops.lookup id).isSome then { st with loops := change id f st.loops }
  else { st with ended := change id f st.ended }

/-- Starts a loop in a frame of its own and tells its identifier; none if the evaluation is nested too
deeply. -/
def startLoop? (st : Store) (l : LoopState) : Option (Store × Nat) :=
  (st.enter? { Frame.empty with loop := .running st.fresh }).map fun inside =>
    ({ inside with loops := (st.fresh, l) :: st.loops, fresh := st.fresh + 1 }, st.fresh)

/-- Ends the innermost loop and leaves its frame. -/
def endLoop (st : Store) : Store :=
  { st.leave with loops := st.loops.drop 1, ended := st.loops.take 1 ++ st.ended }

/-- The state of the innermost loop, if it is running. -/
def loopState? (st : Store) : Option LoopState :=
  match st.currentLoop with
  | .running id => st.loop? id
  | _ => none

def loopFields (s : LoopState) : List (String × Value) :=
  let counted (f : Nat → Nat) : Value := (s.length.map fun n => Value.ofCount (f n)).getD .undefined
  [("index0", .ofCount s.index), ("index", .ofCount (s.index + 1)), ("length", counted id),
    ("revindex", counted (· - s.index)), ("revindex0", counted (· - s.index - 1)),
    ("first", .bool (s.index == 0)),
    ("last", .bool (s.length.any fun n => n == 0 || s.index + 1 == n)),
    ("depth", .ofCount (s.depth + 1)), ("depth0", .ofCount s.depth),
    ("previtem", s.previous), ("nextitem", s.next)]

def loopText (s : LoopState) : String :=
  "<loop " ++ toString s.index ++ "/" ++ (s.length.map toString).getD "?" ++ ">"

/-! ## Seeing through references -/

/-- The members of a namespace in the order of their names. -/
def membersOf (st : Store) (id : Nat) : Members Value :=
  ((st.spaces.lookup id).getD []).mergeSort fun a b => compareText a.1 b.1 != .gt

/-- A value with its references replaced by what they refer to, down to a depth. -/
def viewWithin (st : Store) : Nat → Value → Value
  | 0, v => v
  | n + 1, v =>
      match v with
      | .list items origin => .list (items.map (viewWithin st n)) origin
      | .iterator items extent origin => .iterator (items.map (viewWithin st n)) extent origin
      | .group key items origin =>
          .group (viewWithin st n key) (items.map (viewWithin st n)) origin
      | .map entries origin =>
          .map (entries.map fun e => (viewWithin st n e.1, viewWithin st n e.2)) origin
      | .overlay entries layers origin =>
          let seen := fun (es : List (Value × Value)) =>
            es.map fun e => (viewWithin st n e.1, viewWithin st n e.2)
          .overlay (seen entries) (layers.map seen) origin
      | .keywords entries =>
          .keywords (entries.map fun e => (viewWithin st n e.1, viewWithin st n e.2))
      | .loop id =>
          match st.loop? id with
          | some s => .record (loopText s) (loopFields s) (some ⟨.made id, []⟩)
          | none => v
      | .space id =>
          .map ((membersOf st id).map fun m => (.text m.1, viewWithin st n m.2))
            (some ⟨.made id, []⟩)
      | v => v

/-- A value that is itself replaced by what it refers to, while its parts stay references. -/
def face (st : Store) (v : Value) : Value :=
  match v with
  | .loop _ => viewWithin st 1 v
  | .space id =>
      .map ((membersOf st id).map fun m => (.text m.1, m.2)) (some ⟨.made id, []⟩)
  | v => v

/-- A value with its references replaced by what they refer to. Where there is no namespace, only a
loop itself is a reference. -/
def view (st : Store) (v : Value) : Value :=
  match v with
  | .loop _ => viewWithin st 1 v
  | v => if st.spaces.isEmpty then v else viewWithin st (v.depth + 128) v

/-- The attribute of a value. -/
def attribute? (st : Store) (v : Value) (name : String) : Option Value :=
  match v with
  | .loop id => (st.loop? id).bind fun s => (loopFields s).lookup name
  | .space id => (st.spaces.lookup id).bind fun members => Members.get? members name
  | v => v.attribute? name

/-- The item of a value under a key. -/
def item? (st : Store) (v key : Value) : Option Value :=
  match v, key with
  | .loop id, .string name _ => st.attribute? (.loop id) name
  | .space id, .string name _ => st.attribute? (.space id) name
  | v, key => v.item? key

/-- Gives a value to a member of a namespace. -/
def setMember (st : Store) (id : Nat) (name : String) (value : Value) : Store :=
  let (st, value) := st.settle value
  { st with spaces := change id (fun members => Members.insert members name value) st.spaces }

/-- Makes a namespace with some members. -/
def newSpace (st : Store) (members : List (String × Value)) : Store × Value :=
  let id := st.fresh
  let st := { st with spaces := (id, []) :: st.spaces, fresh := id + 1 }
  (members.foldl (fun st m => st.setMember id m.1 m.2) st, .space id)

end Store

end Stencil.Template
