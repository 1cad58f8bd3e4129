import Stencil.Template.Constant
import Stencil.Template.Filter
import Stencil.Template.Names
import Stencil.Template.Store

/-!
# Evaluation

Filling a template: expressions become values and statements become text. An evaluation changes the
store, and stops at the first fault.

The recursion is on the template itself. What is entered from elsewhere — a macro by a call, a loop by
its own name, a block by its name — comes in through `Calls`; `Calls.upTo` ties the knot for so many
calls inside one another, of which the limit on nesting allows only a fixed number.

The variables are asked for single names only, those of the expressions of the template.
-/

namespace Stencil.Template

/-- A step of an evaluation. -/
abbrev Fill (α : Type) := StateT Store (Except Fault) α

/-- Where in a template something is evaluated. -/
structure Setting where
  /-- How printed values are escaped. -/
  mode : EscapeMode
  /-- How they were escaped where the surrounding part was entered. -/
  initial : EscapeMode
  /-- Whether this is inside of a macro, from where blocks cannot be reached. -/
  inRoutine : Bool

/-- Ways to enter the parts of a template from elsewhere. -/
structure Calls where
  /-- Calls a macro. -/
  routine : (mode : EscapeMode) → (line : Nat) → Routine → List Value → Fill Value
  /-- Goes through a value with the loop of a number. -/
  again : Setting → (line serial : Nat) → Value → Fill (List Char)
  /-- Fills a block. -/
  block : (mode : EscapeMode) → (line : Nat) → (name : String) → Fill (List Char)

/-- What is fixed while an expression or a statement is evaluated. -/
structure Surroundings extends Setting where
  vars : String → Option Value
  calls : Calls
  /-- The text that filters of a body are applied to. -/
  captured : Value

namespace Fill

def fault {α : Type} (cause : Cause) (line : Nat) : Fill α := fun _ => .error ⟨cause, line⟩

/-- The result of an operation on a line. -/
def lift {α : Type} (line : Nat) (result : Except Cause α) : Fill α :=
  match result with
  | .ok x => pure x
  | .error c => fault c line

/-- A value with its references replaced by what they refer to. -/
def view (v : Value) : Fill Value := fun st => .ok (st.view v, st)

/-- Values with their references replaced by what they refer to. -/
def views (vs : List Value) : Fill (List Value) := fun st => .ok (vs.map st.view, st)

/-- Values that are themselves replaced by what they refer to. -/
def faces (vs : List Value) : Fill (List Value) := fun st => .ok (vs.map st.face, st)

def truth (v : Value) : Fill Bool := fun st => .ok ((st.view v).isTrue, st)

/-- The items that a value is gone through by, and whether their number was known before. A text is read
character by character, so the number of its characters shows only at its end. -/
def itemsOf (line : Nat) (v : Value) : Fill (List Value × Bool) := fun st =>
  let (st, v) := st.settle v
  let v := st.face v
  match v.iterateOr with
  | .ok items =>
      let known := match v with
        | .string _ _ => false
        | v => v.length?.isSome || v.isUnset
      .ok ((items, known), st)
  | .error c => .error ⟨c, line⟩

def enter (line : Nat) (f : Frame) : Fill Unit := fun st =>
  match st.enter? f with
  | some st => .ok ((), st)
  | none => .error ⟨.invalidOperation, line⟩

/-- Leaves the innermost frame. -/
def leave : Fill Unit := fun st => .ok ((), st.leave)

/-- Forgets the names of the innermost frame. -/
def clear : Fill Unit := fun st => .ok ((), st.clear)

/-! ### Operands -/

/-- Puts a value on the pile. -/
def push (v : Value) : Fill Unit := fun st => .ok ((), st.push v)

/-- Takes so many values off the pile, in the order in which they were put there. -/
def pop (n : Nat) : Fill (List Value) := fun st =>
  let (st, vs) := st.pop n
  .ok (vs, st)

/-- Takes two values off the pile. -/
def popPair : Fill (Value × Value) := do
  match ← pop 2 with
  | [a, b] => pure (a, b)
  | _ => pure (.undefined, .undefined)

/-- A step whose leftovers on the pile are dropped. -/
def apart {α : Type} (step : Fill α) : Fill α := fun st =>
  match step st with
  | .ok (x, after) => .ok (x, { after with pile := st.pile })
  | .error f => .error f

end Fill

open Fill

/-! ## Operators -/

/-- A captured text; it is safe where values are escaped, since then all of it was. -/
def capturedText (mode : EscapeMode) (text : List Char) : Value :=
  .string (String.ofList text) (mode != .none)

/-! ## Arguments -/

/-- How arguments lie on the pile: so many values of which each holds several arguments, and above
them so many single arguments. -/
structure Batches where
  gathered : Nat
  single : Nat

namespace Batches

/-- Gathers the single arguments into one value. -/
def gather (b : Batches) (size : Nat) (make : List Value → Value) : Fill Nat := do
  if b.single = 0 then pure b.gathered
  else
    push (make (← pop (size * b.single)))
    pure (b.gathered + 1)

/-- The arguments given by name as one value. -/
def keywordsOf (vs : List Value) : Value := .keywords (distinctEntries (pairedEntries vs))

/-- The entries of several mappings as the arguments given by name. -/
def mergedKeywords (vs : List Value) : Except Cause Value :=
  match vs.mapM Value.entries? with
  | some all => .ok (.keywords (distinctEntries all.flatten))
  | none => .error .invalidOperation

/-- The items of several values, one after the other. -/
def spread (vs : List Value) : Except Cause (List Value) := (vs.mapM Value.iterateOr).map List.flatten

/-- Takes the arguments given by name off the pile. -/
def takeKeywords (line : Nat) (b : Batches) : Fill Value := do
  if b.gathered = 0 then pure (keywordsOf (← pop (2 * b.single)))
  else
    let n ← b.gather 2 keywordsOf
    lift line (mergedKeywords (← faces (← pop n)))

/-- Takes all arguments off the pile; those given by name, if there are any, are one value at the
end. -/
def take (line : Nat) (positional : Batches) (keywords : Option Batches) : Fill (List Value) := do
  let positional ← match keywords with
    | some b => do
        push (← b.takeKeywords line)
        pure { positional with single := positional.single + 1 }
    | none => pure positional
  if positional.gathered = 0 then pop positional.single
  else
    let n ← positional.gather 1 .ofItems
    lift line (spread (← faces (← pop n)))

/-- How the arguments that are given by name lie on the pile, if there are any. -/
def when (b : Batches) (args : List Arg) : Option Batches :=
  if args.any Arg.isNamed then some b else none

end Batches

/-! ## Calls -/

/-- What is called: something that is named, or the first value among the arguments. -/
inductive Callee where
  | named (id : String)
  | method (name : String)
  | value

/-- What an expression that is called stands for. -/
def Callee.ofExpr : Expr → Callee
  | .name id _ => .named id
  | .attribute _ name _ => .method name
  | _ => .value

/-- How many values a callee is among the arguments. -/
def Callee.count : Callee → Nat
  | .named _ => 0
  | .method _ | .value => 1

/-- Calls a value. Without arguments, the engine's `debug` prints a state of its own, which is left out: here it
prints an empty list. -/
def callValue (s : Surroundings) (line : Nat) (v : Value) (args : List Value) : Fill Value :=
  match v with
  | .routine r => s.calls.routine s.mode line r args
  | .function .range => do lift line (range.run (← faces args))
  | .function .dict => do lift line (dict.run (← faces args))
  | .function .debug => do lift line (described.run (← views args))
  | .function .space => do
      let members ← lift line (initialMembers.run (← faces args))
      fun st =>
        let (st, v) := st.newSpace members
        .ok (v, st)
  | _ => fault .invalidOperation line

def changeLoop (id : Nat) (f : LoopState → LoopState) : Fill Unit := fun st =>
  .ok ((), st.changeLoop id f)

/-- The fault that a value of a kind has no method of a name. -/
def noMethod (kind : ValueKind) (name : String) : Cause :=
  .unknownMethod (kind.name ++ " has no method named " ++ name)

/-- Calls a method of a loop; its other parts cannot be called. -/
def callLoopMethod (line id : Nat) (name : String) (args : List Value) : Fill Value := fun st =>
  match st.loop? id, name with
  | some l, "cycle" => .ok ((args[l.index % args.length]?).getD .undefined, st)
  | some l, "changed" =>
      let args := args.map st.view
      let same := match l.seen with
        | some seen => (Value.ofItems seen).equals (.ofItems args)
        | none => false
      if same then .ok (.bool false, st)
      else (do changeLoop id fun l => { l with seen := some args }; pure (.bool true) : Fill Value) st
  | some l, name =>
      if ((Store.loopFields l).lookup name).isSome then .error ⟨.invalidOperation, line⟩
      else .error ⟨noMethod .map name, line⟩
  | none, name => .error ⟨noMethod .map name, line⟩

/-- Calls a method, which is an attribute that can be called. -/
def callMethod (s : Surroundings) (line : Nat) (object : Value) (name : String)
    (args : List Value) : Fill Value :=
  match object with
  | .loop id => callLoopMethod line id name args
  | v => fun st =>
      match st.attribute? v name with
      | some f => callValue s line f args st
      | none =>
          .error ⟨noMethod v.kind name, line⟩

def noFunction {α : Type} (id : String) (line : Nat) : Fill α :=
  fault (.unknownFunction (id ++ " is unknown")) line

/-- What the innermost loop prints for another value. -/
def loopAgain (s : Surroundings) (line : Nat) (v : Value) : Fill (List Char) := fun st =>
  match st.currentLoop with
  | .none => noFunction "loop" line st
  | .picking => fault .invalidOperation line st
  | .running id =>
      match (st.loop? id).bind LoopState.again with
      | none => fault .invalidOperation line st
      | some serial => s.calls.again s.toSetting line serial v st

/-- Calls what a name stands for. Where that is a loop, the innermost loop is entered again. -/
def callNamed (s : Surroundings) (line : Nat) (id : String) (args : List Value) : Fill Value :=
  if id = "super" then fault .invalidOperation line
  else fun st =>
    match st.lookup? s.vars id, args with
    | some (.loop _), [v] =>
        (do pure (capturedText s.mode (← loopAgain s line v)) : Fill Value) st
    | some (.loop _), _ => fault .invalidOperation line st
    | some f, args => callValue s line f args st
    | none, _ => noFunction id line st

def invoke (s : Surroundings) (line : Nat) (callee : Callee) (args : List Value) : Fill Value :=
  match callee, args with
  | .named id, args => callNamed s line id args
  | .method name, object :: args => callMethod s line object name args
  | .value, v :: args => callValue s line v args
  | _, [] => fault .invalidOperation line

/-- What a block prints that is called. -/
def callBlock (s : Surroundings) (line : Nat) (name : String) : Fill Value :=
  if s.inRoutine then fault (.unknownBlock name) line
  else do pure (capturedText s.mode (← s.calls.block s.mode line name))

/-- Applies a filter; its subject is the first argument. -/
def applyFilter (s : Surroundings) (line : Nat) (name : String) (args : List Value) :
    Fill Value := do
  match Filter.apply s.mode name (← views args) with
  | some result => lift line result
  | none => fault (.unknownFilter (some name)) line

/-- Performs a test; its subject is the first argument. -/
def performTest (line : Nat) (name : String) (args : List Value) : Fill Value := do
  let args ← views args
  match Test.ofName? Filter.exists_ name with
  | some test => do pure (.bool (← lift line (test.run args)))
  | none => fault (.unknownTest (some name)) line

/-! ## Expressions -/

mutual

/-- The value of an expression. -/
def evalExpr (s : Surroundings) : Expr → Fill Value
  | .name id _ => fun st => .ok ((st.lookup? s.vars id).getD .undefined, st)
  | .constant v _ => pure v
  | .absent => pure .undefined
  | .captured => pure s.captured
  | .negation e _ => do
      let v ← evalExpr s e
      pure (.bool (!(← truth v)))
  | .negative e start => do
      let v ← evalExpr s e
      lift start (negate v)
  | .binary op l r start => do
      let a ← evalExpr s l
      match op with
      | .and => if ← truth a then evalExpr s r else pure a
      | .or => if ← truth a then pure a else evalExpr s r
      | op =>
          push a
          push (← evalExpr s r)
          let (a, b) ← popPair
          lift (r.lineAfter (l.lineAfter start)) (applyOperator op (← view a) (← view b))
  | .comparison e others start => do
      push (← evalExpr s e)
      evalRelations s (e.lineAfter start) others
  | .choice c v a _ => do
      if ← truth (← evalExpr s c) then evalExpr s v else evalExpr s a
  | .filter name e args start => do
      push (← evalExpr s e)
      let positional ← pushPositional s ⟨0, 1⟩ args
      let keywords ← pushKeywords s ⟨0, 0⟩ args
      let line := lineAfterArgs (e.lineAfter start) args
      applyFilter s line name (← positional.take line (keywords.when args))
  | .test name e args start => do
      push (← evalExpr s e)
      let positional ← pushPositional s ⟨0, 1⟩ args
      let keywords ← pushKeywords s ⟨0, 0⟩ args
      let line := lineAfterArgs (e.lineAfter start) args
      performTest line name (← positional.take line (keywords.when args))
  | .attribute e name _ => do
      let v ← evalExpr s e
      fun st => .ok ((st.attribute? v name).getD .undefined, st)
  | .item e i _ => do
      push (← evalExpr s e)
      push (← evalExpr s i)
      let (v, key) ← popPair
      fun st => .ok ((st.item? v (st.view key)).getD .undefined, st)
  | .slice e a b c start => do
      push (← evalExpr s e)
      push (← evalExpr s a)
      push (← evalExpr s b)
      push (← evalExpr s c)
      let line := c.lineAfter (b.lineAfter (a.lineAfter (e.lineAfter start)))
      match ← pop 4 with
      | [v, first, last, step] => do lift line ((← view v).slice first last step)
      | _ => fault .invalidOperation line
  | .call f args start =>
      match f.blockName? with
      | some name => callBlock s start name
      | none => do
          let called := evalExpr s f
          match f with
          | .name .. => pure ()
          | .attribute e _ _ => push (← evalExpr s e)
          | _ => push (← called)
          let callee := Callee.ofExpr f
          let positional ← pushPositional s ⟨0, callee.count⟩ args
          let keywords ← pushKeywords s ⟨0, 0⟩ args
          let line := lineAfterArgs (lineAfterCallee start f) args
          invoke s line callee (← positional.take line (keywords.when args))
  | .list items _ => do
      pushItems s items
      pure (.ofItems (← pop items.length))
  | .map entries _ => do
      pushEntries s entries
      pure (.ofEntries (distinctEntries (pairedEntries (← pop (2 * entries.length)))))

/-- Whether the operands of a comparison stand in their relations, the first being on the pile. An
operand after a relation that does not hold is not evaluated. -/
def evalRelations (s : Surroundings) (line : Nat) : List (Relation × Expr) → Fill Value
  | [] => pure (.bool true)
  | (r, e) :: others => do
      push (← evalExpr s e)
      let (a, b) ← popPair
      let line := e.lineAfter line
      let holds ← lift line (r.relates (← view a) (← view b))
      if others.isEmpty || !holds then pure (.bool holds)
      else
        push b
        evalRelations s line others

/-- Puts the arguments that are given by position on the pile. -/
def pushPositional (s : Surroundings) (b : Batches) : List Arg → Fill Batches
  | [] => pure b
  | .positional e :: args => do
      push (← evalExpr s e)
      pushPositional s { b with single := b.single + 1 } args
  | .splat e :: args => do
      let n ← b.gather 1 .ofItems
      push (← evalExpr s e)
      pushPositional s ⟨n + 1, 0⟩ args
  | .keyword .. :: args | .keywords _ :: args => pushPositional s b args

/-- Puts the arguments that are given by name on the pile, each behind its name. -/
def pushKeywords (s : Surroundings) (b : Batches) : List Arg → Fill Batches
  | [] => pure b
  | .keyword name e :: args => do
      push (.text name)
      push (← evalExpr s e)
      pushKeywords s { b with single := b.single + 1 } args
  | .keywords e :: args => do
      let n ← b.gather 2 Batches.keywordsOf
      push (← evalExpr s e)
      pushKeywords s ⟨n + 1, 0⟩ args
  | .positional _ :: args | .splat _ :: args => pushKeywords s b args

/-- Puts the values of expressions on the pile. -/
def pushItems (s : Surroundings) : List Expr → Fill Unit
  | [] => pure ()
  | e :: es => do
      push (← evalExpr s e)
      pushItems s es

/-- Puts the keys and the values of entries on the pile. -/
def pushEntries (s : Surroundings) : List (Expr × Expr) → Fill Unit
  | [] => pure ()
  | (k, v) :: es => do
      push (← evalExpr s k)
      push (← evalExpr s v)
      pushEntries s es

end

/-- Puts a value that is called on the pile, or the value whose method is called. -/
def pushCallee (s : Surroundings) (f : Expr) : Fill Unit := do
  match f with
  | .name .. => pure ()
  | .attribute e _ _ => push (← evalExpr s e)
  | f => push (← evalExpr s f)

/-- The value of a call that is handed a body. A block that is called takes none. -/
def evalCallWith (s : Surroundings) (f : Expr) (args : List Arg) (start : Nat) (body : Fill Value) :
    Fill Value :=
  match f.blockName? with
  | some name => callBlock s start name
  | none => do
      pushCallee s f
      let callee := Callee.ofExpr f
      let positional ← pushPositional s ⟨0, callee.count⟩ args
      let keywords ← pushKeywords s ⟨0, 0⟩ args
      push (.text bodyName)
      push (← body)
      let keywords := { keywords with single := keywords.single + 1 }
      let line := lineAfterArgs (lineAfterCallee start f) args
      invoke s line callee (← positional.take line (some keywords))

/-- What the innermost loop prints for the one argument that it is called with directly. An argument
that stands for several is taken as their number. -/
def evalLoopAgain (s : Surroundings) (arg : Arg) (start : Nat) : Fill (List Char) := do
  let line := lineAfterArgs start [arg]
  let positional ← pushPositional s ⟨0, 0⟩ [arg]
  let keywords ← pushKeywords s ⟨0, 0⟩ [arg]
  let args ← positional.take line (keywords.when [arg])
  let subject := if positional.gathered = 0 then args.head?.getD .undefined else .ofCount args.length
  loopAgain s line subject

/-- What is printed of an expression. -/
def evalPrint (s : Surroundings) (line : Nat) (e : Expr) : Fill (List Char) :=
  match e with
  | .call (.name "loop" _) [arg] start => evalLoopAgain s arg start
  | e => do
      let v ← evalExpr s e
      lift (e.lineAfter line) (printed s.mode (← view v))

/-! ## Assignments -/

mutual

def assign (s : Surroundings) (v : Value) : Target → Fill Unit
  | .name id _ => fun st => .ok ((), st.assign id v)
  | .attribute object name line => do
      let space ← evalExpr s object
      match space with
      | .space id => fun st => .ok ((), st.setMember id name v)
      | _ => fault .invalidOperation (object.lineAfter line)
  | .parts targets line => fun st =>
      match v with
      | .string .. | .undefined | .none => .error ⟨.cannotUnpack, line⟩
      | v =>
          match (st.face v).iterate? with
          | none => .error ⟨.cannotUnpack, line⟩
          | some items =>
              if items.length = targets.length then assignAll s items targets st
              else .error ⟨.cannotUnpack, line⟩

def assignAll (s : Surroundings) (vs : List Value) : List Target → Fill Unit
  | [] => pure ()
  | t :: ts =>
      match vs with
      | [] => pure ()
      | v :: vs => do
          assign s v t
          assignAll s vs ts

end

/-- Gives values to the targets of a scope, each seeing the ones before. -/
def bind (s : Surroundings) : List (Target × Expr) → Fill Unit
  | [] => pure ()
  | (t, e) :: bs => do
      assign s (← evalExpr s e) t
      bind s bs

/-! ## Loops -/

/-- The items for which a condition holds, each assigned to a target first. -/
def passing (assignItem : Value → Fill Unit) (condition : Fill Bool) :
    List Value → List Value → Fill (List Value)
  | [], kept => pure kept.reverse
  | v :: vs, kept => do
      assignItem v
      if ← condition then passing assignItem condition vs (v :: kept)
      else passing assignItem condition vs kept

/-- Goes through items; `printed` is what the items before printed, the last first. What was assigned
for the item before is forgotten. -/
def eachItem (assignItem : Value → Fill Unit) (body : Fill (List Char)) (id : Nat) :
    List Value → List (List Char) → Fill (List Char)
  | [], printed => pure printed.reverse.flatten
  | v :: vs, printed => do
      changeLoop id fun l => { l with next := vs.head?.getD .undefined }
      clear
      assignItem v
      let out ← body
      changeLoop id fun l => { l with index := l.index + 1, previous := v }
      eachItem assignItem body id vs (out :: printed)

/-- Starts a loop in a frame of its own and gives its identifier. -/
def startLoop (line : Nat) (again : Option Nat) (length : Option Nat) : Fill Nat := fun st =>
  let depth := match st.loopState? with
    | some l => if l.again.isSome then l.depth + 1 else 0
    | none => 0
  let state : LoopState := ⟨again, 0, length, depth, .undefined, .undefined, none⟩
  match st.startLoop? state with
  | some (st, id) => .ok (id, st)
  | none => .error ⟨.invalidOperation, line⟩

def endLoop : Fill Unit := fun st => .ok ((), st.endLoop)

/-- Runs a loop over items. -/
def runLoop (assignItem : Value → Fill Unit) (body : Fill (List Char)) (line : Nat)
    (again : Option Nat) (items : List Value) (sized : Bool) : Fill (List Char) := do
  let id ← startLoop line again (if sized then some items.length else none)
  let out ← eachItem assignItem body id items []
  endLoop
  pure out

/-! ## Macros -/

/-- A macro as a value; it keeps what its free names stand for here. -/
def makeRoutine (s : Surroundings) (decl : MacroDecl) : Fill Value := fun st =>
  let (st, id) := st.withClosure
  let st := decl.kept.foldl (Store.keep s.vars id) st
  .ok (.routine ⟨decl.serial, decl.name, decl.params, decl.takesBody, some id⟩, st)

/-- What is given for the parameters of a macro, and the names of the arguments that were used. -/
def matchParams (keywords : List (Value × Value)) : List String → List Value →
    Except Cause (List (String × Value) × List String)
  | [], _ => .ok ([], [])
  | p :: ps, vs =>
      match vs, keywordNamed? keywords p with
      | _ :: _, some _ => .error .tooManyArguments
      | v :: vs, none => (matchParams keywords ps vs).map fun (m, used) => ((p, v) :: m, used)
      | [], some w => (matchParams keywords ps []).map fun (m, used) => ((p, w) :: m, p :: used)
      | [], none => (matchParams keywords ps []).map fun (m, used) => ((p, .undefined) :: m, used)

/-- What a macro is called with. -/
structure Application where
  params : List (String × Value)
  /-- The body that is handed over, if the macro calls it. -/
  body : Option Value

/-- Fits arguments to a macro. Arguments that are given by something else than a name are ignored. -/
def Application.ofArgs (r : Routine) (args : List Value) : Except Cause Application := do
  let (keywords, values) := match args.getLast? with
    | some (.keywords entries) => (entries, args.dropLast)
    | _ => ([], args)
  if values.length > r.params.length then .error .tooManyArguments
  else
    let (params, used) ← matchParams keywords r.params values
    let used := if r.takesBody then bodyName :: used else used
    if keywords.all fun e => e.1.text?.all used.contains then
      pure ⟨params,
        if r.takesBody then some ((keywordNamed? keywords bodyName).getD .undefined) else none⟩
    else .error .tooManyArguments

/-- Assigns parameters, the last first; one that is undefined gets its default if it has one. -/
def assignParams (s : Surroundings) : List (String × Value) → List Expr → Fill Unit
  | [], _ => pure ()
  | (name, v) :: ps, defaults => do
      let v ← match v, defaults.head? with
        | .undefined, some e => evalExpr s e
        | v, _ => pure v
      fun st => .ok ((), st.assign name v)
      assignParams s ps (defaults.drop 1)

/-- What a call of a macro adds to the depth of nesting, its frames apart. -/
def callDepth : Nat := 4

/-- The store inside of a macro; none if the evaluation is nested too deeply. -/
def insideRoutine? (st : Store) (r : Routine) (body : Option Value) : Option Store :=
  let locals := match body with
    | some v => [(bodyName, v)]
    | none => []
  let ground := match r.closure with
    | some id => .closure id
    | none => .nothing
  let inside : Store :=
    { st with
      frames := [{ Frame.empty with locals, ground }, { Frame.empty with ground := .vars }]
      outer := st.depth + callDepth }
  if inside.depth > Store.maxDepth then none else some inside

/-- Calls a macro, whose body is filled by `fill`. -/
def runRoutine (s : Surroundings) (line : Nat) (decl : MacroDecl) (fill : Fill (List Char))
    (r : Routine) (args : List Value) : Fill Value := fun st =>
  match Application.ofArgs r args with
  | .error c => .error ⟨c, line⟩
  | .ok application =>
      match insideRoutine? st r application.body with
      | none => .error ⟨.invalidOperation, line⟩
      | some inside =>
          match (do
            assignParams s application.params.reverse decl.defaults.reverse
            fill : Fill (List Char)) inside with
          | .error f => .error f
          | .ok (out, after) =>
              .ok (capturedText s.mode out,
                { after with frames := st.frames, outer := st.outer, pile := st.pile })

/-! ## Statements -/

/-- The mode that an expression asks for. -/
def escapingMode (initial : EscapeMode) (v : Value) : Except Cause EscapeMode :=
  match v with
  | .string s _ =>
      if s = "html" then .ok .html
      else if s = "json" then .ok .json
      else if s = "none" then .ok .none
      else .error .invalidOperation
  | v =>
      if v.equals (.bool true) then .ok (if initial = .none then .html else initial) else .ok .none

/-- The outcome of asking for other templates: there are none. A list asks for the first there is. -/
def otherTemplate (optional : Bool) (v : Value) : Except Cause Unit :=
  let names := match v with
    | .string .. | .undefined | .none => [v]
    | v => v.iterate?.getD [v]
  if names.any fun n => n.text?.isNone then .error .invalidOperation
  else if names.isEmpty || optional then .ok ()
  else .error .templateNotFound

/-- The outcome of asking for a template to extend. -/
def parentTemplate (v : Value) : Except Cause Unit :=
  match v.text? with
  | none => .error .invalidOperation
  | some name => .error (if name = templateName then .invalidOperation else .templateNotFound)

/-- The exports of another template, of which there is none. -/
def noExports : Value := .record "" [] none

/-- The line that is reached behind statements of which the last is a text. -/
def lineAfterText (line : Nat) (body : List Stmt) : Nat :=
  match body.getLast? with
  | some (.text _ start) => start
  | _ => line

def assignNames : List (String × Value) → Fill Unit
  | [] => pure ()
  | (name, v) :: rest => do
      fun st => .ok ((), st.assign name v)
      assignNames rest

mutual

/-- What a statement prints. -/
def evalStmt (s : Surroundings) : Stmt → Fill (List Char)
  | .text content _ => pure content
  | .print e line => evalPrint s line e
  | .loop serial target subject only recursive body otherwise line => do
      let v ← evalExpr s subject
      let (items, sized) ← itemsOf (subject.lineAfter line) v
      let (items, sized) ← match only with
        | none => pure (items, sized)
        | some condition => do
            enter (subject.lineAfter line) { Frame.empty with loop := .picking }
            let kept ← passing (assign s · target) (do truth (← evalExpr s condition)) items []
            leave
            pure (kept, true)
      let out ← runLoop (assign s · target) (evalStmts s body) (loopLine subject only line)
        (if recursive then some serial else none) items sized
      if items.isEmpty then evalStmts s otherwise else pure out
  | .branch condition body otherwise _ => do
      if ← truth (← evalExpr s condition) then evalStmts s body else evalStmts s otherwise
  | .scope bindings body line => do
      enter line Frame.empty
      bind s bindings
      let out ← evalStmts s body
      leave
      pure out
  | .assign target e _ => do
      assign s (← evalExpr s e) target
      pure []
  | .capture target e body _ => do
      let out ← evalStmts s body
      assign s (← evalExpr { s with captured := capturedText s.mode out } e) target
      pure []
  | .escaping e body line => do
      let v ← evalExpr s e
      let mode ← lift (e.lineAfter line) (escapingMode s.initial (← view v))
      evalStmts { s with mode := mode } body
  | .filtered e body line => do
      let out ← evalStmts s body
      let v ← evalExpr { s with captured := capturedText s.mode out } e
      lift (e.lineAfter line) (printed s.mode (← view v))
  | .block _ required body line => do
      if required then fault .invalidOperation (lineAfterText line body)
      else
        enter line Frame.empty
        let out ← apart (evalStmts { s with initial := s.mode } body)
        leave
        pure out
  | .inclusion name optional line => do
      let v ← evalExpr s name
      lift line (otherTemplate optional (← view v))
      pure []
  | .extension name line => do
      let v ← evalExpr s name
      lift line (parentTemplate (← view v))
      pure []
  | .importation name target line => do
      enter line Frame.empty
      let v ← evalExpr s name
      lift line (otherTemplate false (← view v))
      leave
      assign s noExports target
      push .undefined
      pure []
  | .selection name names line => do
      enter line Frame.empty
      let v ← evalExpr s name
      lift line (otherTemplate false (← view v))
      let found ← fun st =>
        .ok (names.map fun n => (n.2, (st.lookup? s.vars n.1).getD .undefined), st)
      leave
      assignNames found.reverse
      push .undefined
      pure []
  | .define decl => do
      let v ← makeRoutine s decl
      fun st => .ok ([], st.assign decl.name v)
  | .callWith call caller _ =>
      match call with
      | .call f args start => do
          let v ← evalCallWith s f args start (makeRoutine s caller)
          lift (call.lineAfter start) (printed s.mode (← view v))
      | _ => pure []
  | .perform call _ => do
      push (← evalExpr s call)
      pure []

/-- What statements print, one after the other. -/
def evalStmts (s : Surroundings) : List Stmt → Fill (List Char)
  | [] => pure []
  | stmt :: stmts => do
      let out ← evalStmt s stmt
      pure (out ++ (← evalStmts s stmts))

end

/-! ## Entering from elsewhere -/

def findRoutine? (definitions : List Definition) (serial : Nat) : Option MacroDecl :=
  definitions.findSome? fun
    | .routine decl => if decl.serial = serial then some decl else none
    | _ => none

/-- Whether a block is required, and its body. -/
def findBlock? (definitions : List Definition) (name : String) : Option (Bool × List Stmt) :=
  definitions.findSome? fun
    | .block n required body => if n = name then some (required, body) else none
    | _ => none

/-- A loop that is entered again. -/
structure LoopDecl where
  target : Target
  line : Nat
  body : List Stmt
  hasOtherwise : Bool

def findLoop? (definitions : List Definition) (serial : Nat) : Option LoopDecl :=
  definitions.findSome? fun
    | .loop n target line body hasOtherwise =>
        if n = serial then some ⟨target, line, body, hasOtherwise⟩ else none
    | _ => none

/-- Calls inside one another up to a number. A loop with an alternative that is entered again leaves
on the pile whether it had no items. -/
def Calls.upTo (vars : String → Option Value) (definitions : List Definition) : Nat → Calls
  | 0 =>
      { routine := fun _ line _ _ => fault .invalidOperation line
        again := fun _ line _ _ => fault .invalidOperation line
        block := fun _ line _ => fault .invalidOperation line }
  | n + 1 =>
      let within (setting : Setting) : Surroundings :=
        ⟨setting, vars, Calls.upTo vars definitions n, .undefined⟩
      { routine := fun mode line r args =>
          match findRoutine? definitions r.serial with
          | none => fault .invalidOperation line
          | some decl =>
              let s := within ⟨mode, mode, true⟩
              runRoutine s line decl (evalStmts s decl.body) r args
        again := fun setting line serial v => do
          match findLoop? definitions serial with
          | none => fault .invalidOperation line
          | some l =>
              let s := within setting
              let (items, sized) ← itemsOf line v
              let out ← runLoop (assign s · l.target) (evalStmts s l.body) l.line (some serial)
                items sized
              if l.hasOtherwise then push (.bool items.isEmpty)
              pure out
        block := fun mode line name =>
          match findBlock? definitions name with
          | none => fault (.unknownBlock name) line
          | some (true, _) => fault .invalidOperation line
          | some (false, body) => do
              enter line Frame.empty
              let out ← apart (evalStmts (within ⟨mode, mode, false⟩) body)
              leave
              pure out }

/-- Fills a template. -/
def fill (vars : String → Option Value) (mode : EscapeMode) (body : List Stmt) :
    Except Fault (List Char) :=
  let calls := Calls.upTo vars (definitionsOf body) (Store.maxDepth + 1)
  match evalStmts ⟨⟨mode, mode, false⟩, vars, calls, .undefined⟩ body Store.start with
  | .ok (out, _) => .ok out
  | .error f => .error f

end Stencil.Template
