import Stencil.Proofs.Template.Marker
import Stencil.Proofs.Template.Parser.Loop

/-!
# Running a loop

A loop has a frame of its own. For each item the names of the item before are forgotten, the new ones are given, and
the body is filled; what is outside of the frame stays as it is (`Inside`). So one turn prints the body filled with
the names of its item, and by induction over the items the loop prints these texts one after the other, each once.

What the items are is told by the value that is gone through: the items of an array, the pairs of a name and a value
of an object behind the filter for them, and none where there is no value.

Main statement: `render_loop`.
-/

namespace Stencil

/-- Variables with further ones in front of them. -/
def Variables.extend (v : Variables) (bound : Members Json) : Variables :=
  ⟨bound ++ v.members, List.append_ne_nil_of_right_ne_nil _ v.nonempty⟩

namespace Template

variable {escapes : Bool} {v : Variables} {outer st : Store} {s : Surroundings} {id : Nat}
  {locals : Members Value} {bound : Members Json} {w : Option Json} {x item : Value}

/-! ## Stores inside of a loop -/

/-- Whether a store is inside of a loop which another store is outside of: there is one more frame, with the names
that the loop gives, and names are sought in nothing else. -/
structure Inside (outer : Store) (id : Nat) (locals : Members Value) (st : Store) : Prop where
  frames : st.frames = ⟨locals, .running id, none, .nothing⟩ :: outer.frames
  closures : st.closures = outer.closures
  spaces : st.spaces = outer.spaces

theorem Inside.changeLoop (h : Inside outer id locals st) (n : Nat) (f : LoopState → LoopState) :
    Inside outer id locals (st.changeLoop n f) := by
  unfold Store.changeLoop
  split
  · exact ⟨h.frames, h.closures, h.spaces⟩
  · exact ⟨h.frames, h.closures, h.spaces⟩

theorem Inside.clear (h : Inside outer id locals st) : Inside outer id [] st.clear := by
  unfold Store.clear
  rw [h.frames]
  exact ⟨rfl, h.closures, h.spaces⟩

theorem Inside.assign (h : Inside outer id locals st) (name : String) (hx : x.isRootless = false) :
    Inside outer id (Members.insert locals name x) (st.assign name x) := by
  have hsettle : st.settle x = (st, x) := by
    rw [Store.settle, hx]
    rfl
  simp only [Store.assign, hsettle, h.frames]
  exact ⟨rfl, h.closures, h.spaces⟩

/-- A name that the loop does not give is sought outside. -/
theorem Inside.lookup? (h : Inside outer id locals st) (vars : String → Option Value) {name : String}
    (hname : name ≠ "loop") :
    st.lookup? vars name = (Members.get? locals name).or (outer.lookup? vars name) := by
  have hframe : Store.inFrame? vars st.closures name ⟨locals, .running id, none, .nothing⟩
      = Members.get? locals name := by
    unfold Store.inFrame?
    cases hget : Members.get? locals name with
    | some x => rfl
    | none =>
        dsimp only
        split
        · contradiction
        · rfl
  unfold Store.lookup?
  rw [h.frames, List.findSome?_cons, hframe, h.closures]
  cases Members.get? locals name <;> rfl

/-! ## Turns -/

/-- Whether an item makes the body of a loop print a text, whatever has been in the loop before. -/
def Turns (outer : Store) (assignItem : Value → Fill Unit) (body : Fill (List Char)) (item : Value)
    (out : List Char) : Prop :=
  ∀ id st, Inside outer id [] st → ∃ locals st', Inside outer id locals st' ∧ assignItem item st = .ok ((), st')
    ∧ body st' = .ok (out, st')

variable {assignItem : Value → Fill Unit} {body : Fill (List Char)} {items : List Value} {outs : List (List Char)}

/-- **Each item is printed once, in order.** -/
theorem eachItem_turns (h : List.Forall₂ (Turns outer assignItem body) items outs) (before : List (List Char))
    (hst : Inside outer id locals st) :
    ∃ st', eachItem assignItem body id items before st = .ok (before.reverse.flatten ++ outs.flatten, st') := by
  -- On the items. The frame is cleared before each, so that it does not matter which names it had.
  induction h generalizing before locals st with
  | nil => exact ⟨st, by rw [List.flatten_nil, List.append_nil]; rfl⟩
  | @cons item out items outs hturn _ ih =>
      have hchange (f : LoopState → LoopState) (st : Store) :
          Template.changeLoop id f st = .ok ((), st.changeLoop id f) := rfl
      have hclear (st : Store) : Fill.clear st = .ok ((), st.clear) := rfl
      obtain ⟨_, inside, hinside, hassign, hbody⟩ :=
        hturn id _ (hst.changeLoop id fun l => { l with next := items.head?.getD .undefined }).clear
      obtain ⟨st', hrest⟩ := ih (out :: before)
        (hinside.changeLoop id fun l => { l with index := l.index + 1, previous := item })
      refine ⟨st', ?_⟩
      rw [List.reverse_cons, List.flatten_append, List.append_assoc, List.flatten_singleton] at hrest
      rw [eachItem, bind_of_ok (hchange _ _), bind_of_ok (hclear _), bind_of_ok hassign, bind_of_ok hbody,
        bind_of_ok (hchange _ _), List.flatten_cons]
      exact hrest

/-- **A loop prints what its turns print**, one after the other. -/
theorem runLoop_turns (h : List.Forall₂ (Turns st assignItem body) items outs) (hdepth : st.depth ≤ Store.maxDepth)
    (line : Nat) (again : Option Nat) (sized : Bool) :
    ∃ st', runLoop assignItem body line again items sized st = .ok (outs.flatten, st') := by
  have henter (f : Frame) : st.enter? f = some { st with frames := f :: st.frames } :=
    if_neg (Nat.not_lt.mpr hdepth)
  have hstart : ∃ inside, startLoop line again (if sized then some items.length else none) st
      = .ok (st.fresh, inside) ∧ Inside st st.fresh [] inside := by
    simp only [startLoop, Store.startLoop?, henter, Option.map_some]
    exact ⟨_, rfl, rfl, rfl, rfl⟩
  obtain ⟨inside, hstart, hinside⟩ := hstart
  obtain ⟨st', hitems⟩ := eachItem_turns h [] hinside
  refine ⟨st'.endLoop, ?_⟩
  rw [runLoop, bind_of_ok hstart, bind_of_ok hitems]
  rfl

/-! ## What an item gives -/

/-- A value that stands for something is from somewhere. -/
theorem isRootless_of_stands (h : Stands w x) : x.isRootless = false := by
  cases w with
  | none =>
      obtain rfl : x = .undefined := h
      rfl
  | some w =>
      obtain ⟨root, path, rfl⟩ := h
      cases w with
      | number n => cases n <;> rfl
      | null | bool _ | string _ | array _ | object _ => rfl

/-- What is from somewhere already stays so. -/
theorem rooted_of_not_rootless (h : x.isRootless = false) (root : Root) (path : List Nat) :
    x.rooted root path = x := by
  unfold Value.rooted
  split <;> first | rfl | cases h

/-- What a loop gives to its names for an item: the item, or the parts of it. -/
inductive LoopNames.Takes : LoopNames → Value → Members Json → Prop
  | one (x : LoopName) {item : Value} {w : Json} (h : Stands (some w) item) :
      Takes (.one x) item [(x.name, w)]
  | two (x y : LoopName) (hne : x.name ≠ y.name) {a b : Value} {w w' : Json} (origin : Origin)
      (ha : Stands (some w) a) (hb : Stands (some w') b) :
      Takes (.two x y hne) (.list [a, b] (some origin)) [(x.name, w), (y.name, w')]

/-- Whether values in a frame stand for variables, name by name. -/
def Binds (bound : Members Json) (locals : Members Value) : Prop :=
  List.Forall₂ (fun b l => l.1 = b.1 ∧ Stands (some b.2) l.2) bound locals

/-- Further variables are at hand in a frame, and the others outside of it. -/
theorem stands_extend {name : String} {found : Option Value} (h : Binds bound locals)
    (hv : Stands (v.get? name) (found.getD .undefined)) :
    Stands ((v.extend bound).get? name) (((Members.get? locals name).or found).getD .undefined) := by
  show Stands (Members.get? (bound ++ v.members) name) _
  induction h with
  | nil => exact hv
  | @cons b l bound locals hb _ ih =>
      obtain ⟨hname, hstands⟩ := hb
      rw [List.cons_append, Members.get?, Members.get?, hname]
      split
      · exact hstands
      · exact ih

/-- **The names of a loop are given what they take.** -/
theorem assign_takes {names : LoopNames} {target : Target} (hreads : names.Reads target)
    (htakes : names.Takes item bound) (hst : Inside outer id [] st) :
    ∃ locals st', Inside outer id locals st' ∧ assign s item target st = .ok ((), st') ∧ Binds bound locals := by
  cases htakes with
  | one x h =>
      obtain ⟨line, rfl⟩ := hreads
      exact ⟨_, _, hst.assign x.name (isRootless_of_stands h), rfl, .cons ⟨rfl, h⟩ .nil⟩
  | @two x y hne a b w w' origin ha hb =>
      obtain ⟨l, l', line, rfl⟩ := hreads
      have hinside := (hst.assign x.name (isRootless_of_stands ha)).assign y.name (isRootless_of_stands hb)
      have hlocals : Members.insert (Members.insert [] x.name a) y.name b = [(x.name, a), (y.name, b)] := by
        simp [Members.insert, hne]
      rw [hlocals] at hinside
      exact ⟨_, _, hinside, rfl, .cons ⟨rfl, ha⟩ (.cons ⟨rfl, hb⟩ .nil)⟩

/-- **A turn prints the body**, filled with what the item gives. -/
theorem turns_loop (l : Loop) {target : Target} {body : List Stmt} (htarget : l.names.Reads target)
    (hbody : List.Forall₂ Fragment.Reads l.body.fragments body) (hs : Serves escapes v s outer)
    (htakes : l.names.Takes item bound) :
    Turns outer (assign s · target) (evalStmts s body) item (l.body.filled escapes (v.extend bound)).toList := by
  intro id st hst
  obtain ⟨locals, inside, hinside, hassign, hbinds⟩ := assign_takes htarget htakes hst
  refine ⟨locals, inside, hinside, hassign, ?_⟩
  rw [Form.filled_eq, String.toList_ofList]
  refine evalStmts_fragments_of hbody hs.mode (hinside.spaces.trans hs.spaces) fun f hf => ?_
  rw [hinside.lookup? s.vars (l.isPlain f (mem_of_field_mem_fragments hf))]
  exact stands_extend hbinds (hs.stands _ (of_isVariable f.reference.isVariable).2.2)

/-! ## Loops -/

/-- Whether a value is gone through by some items where a rendering starts. -/
def GoesThrough (x : Value) (items : List Value) : Prop :=
  ∃ sized fresh, ∀ line, Fill.itemsOf line x Store.start = .ok ((items, sized), { Store.start with fresh := fresh })

/-- **A loop prints its body once for each item**, filled with what the item gives. -/
theorem evalStmts_loop (l : Loop) {stmt : Stmt} {bounds : List (Members Json)} (hreads : l.Reads stmt)
    (hs : Serves escapes v s Store.start)
    (h : ∀ x, l.subject.subject.Holds v x → ∃ y items, passed s.mode l.subject.pipes x = .ok y
      ∧ GoesThrough y items ∧ List.Forall₂ l.names.Takes items bounds) :
    ∃ st, evalStmts s [stmt] Store.start
      = .ok (bounds.flatMap fun b => (l.body.filled escapes (v.extend b)).toList, st) := by
  obtain ⟨serial, target, subject, body, line, rfl, htarget, hsubject, hbody⟩ := hreads
  obtain ⟨e₀, he₀, hpassed⟩ := evalExpr_passes view_start hsubject
  obtain ⟨x, hx, hholds⟩ := evalExpr_subject he₀ hs
  obtain ⟨y, items, hy, ⟨sized, fresh, hitems⟩, htakes⟩ := h x hholds
  have hserves : Serves escapes v s { Store.start with fresh := fresh } := ⟨hs.mode, hs.spaces, hs.stands⟩
  have hturns : List.Forall₂
      (Turns { Store.start with fresh := fresh } (assign s · target) (evalStmts s body)) items
      (bounds.map fun b => (l.body.filled escapes (v.extend b)).toList) := by
    rw [List.forall₂_map_right_iff]
    exact htakes.imp fun item b hb => turns_loop l htarget hbody hserves hb
  obtain ⟨st, hrun⟩ := runLoop_turns hturns (show 1 ≤ 500 by decide) (loopLine subject none line) none sized
  refine ⟨st, ?_⟩
  have hloop : evalStmt s (.loop serial target subject none false body [] line) Store.start
      = .ok (bounds.flatMap fun b => (l.body.filled escapes (v.extend b)).toList, st) := by
    rw [evalStmt, bind_of_ok (hpassed x y hx hy), bind_of_ok (hitems _)]
    refine (bind_of_ok rfl _).trans ((bind_of_ok hrun _).trans ?_)
    rw [List.flatMap_def]
    -- Without items nothing is printed, and there is nothing to print otherwise.
    cases htakes with
    | nil => rfl
    | cons _ _ => rfl
  rw [evalStmts, bind_of_ok hloop]
  exact congrArg (fun cs => Except.ok (cs, st)) (List.append_nil _)

/-! ## What is gone through -/

variable {r : Reference} {ws : List Json} {ms : Members Json}

theorem takes_rootedItems (x : LoopName) (root : Root) (path : List Nat) (n : Nat) (ws : List Json) :
    List.Forall₂ (LoopNames.one x).Takes (rootedItems root path n (ofJsonItems ws))
      (ws.map fun w => [(x.name, w)]) := by
  induction ws generalizing n with
  | nil => exact .nil
  | cons w ws ih => exact .cons (.one x ⟨root, _, rfl⟩) (ih (n + 1))

/-- **An array is gone through item by item.** -/
theorem goesThrough_array (x : LoopName) (h : Stands (some (.array ws)) item) :
    ∃ items, GoesThrough item items
      ∧ List.Forall₂ (LoopNames.one x).Takes items (ws.map fun w => [(x.name, w)]) := by
  obtain ⟨root, path, rfl⟩ := h
  exact ⟨_, ⟨true, 0, fun _ => rfl⟩, takes_rootedItems x root path 0 ws⟩

/-- Where there is no value nothing is gone through. -/
theorem goesThrough_none (h : Stands none item) : GoesThrough item [] := by
  obtain rfl : item = .undefined := h
  exact ⟨true, 0, fun _ => rfl⟩

/-- The filter that makes pairs of the members of an object. -/
def Pipe.members : Pipe := .plain "items" (by decide +kernel)

theorem takes_rootedPairs (x y : LoopName) (hne : x.name ≠ y.name) (root : Root) (path : List Nat) (n m : Nat)
    (ms : Members Json) :
    List.Forall₂ (LoopNames.two x y hne).Takes
      (rootedItems (.made 0) [] m ((rootedEntries root path n (ofJsonMembers ms)).map Filter.pairOf))
      (ms.map fun e => [(x.name, .string e.1), (y.name, e.2)]) := by
  induction ms generalizing n m with
  | nil => exact .nil
  | cons e ms ih =>
      obtain ⟨k, w⟩ := e
      have hvalue : Stands (some w) ((Value.ofJson w).rooted root ((n + 1) :: path)) := ⟨root, _, rfl⟩
      refine .cons (.two x y hne ⟨.made 0, [m]⟩ ⟨root, n :: path, rfl⟩ ?_) (ih (n + 2) (m + 1))
      dsimp only
      rwa [rooted_of_not_rootless (isRootless_of_stands hvalue)]

/-- **An object is gone through member by member**, each a name and a value. -/
theorem goesThrough_items (x y : LoopName) (hne : x.name ≠ y.name) (mode : EscapeMode)
    (h : Stands (some (.object ms)) item) :
    ∃ pairs items, passed mode [.members] item = .ok pairs ∧ GoesThrough pairs items
      ∧ List.Forall₂ (LoopNames.two x y hne).Takes items
        (ms.map fun e => [(x.name, .string e.1), (y.name, e.2)]) := by
  obtain ⟨root, path, rfl⟩ := h
  exact ⟨_, _, rfl, ⟨true, 1, fun _ => rfl⟩, takes_rootedPairs x y hne root path 0 0 ms⟩

end Template

open Template Parse

namespace Policy

variable {p : Policy} {v : Variables}

/-- **A loop is rendered by its turns**: once for each item, the body filled with what the item gives. -/
theorem render_loop (l : Loop) (bounds : List (Members Json))
    (h : ∀ x, l.subject.subject.Holds v x → ∃ y items, passed (modeOf p.escapes) l.subject.pipes x = .ok y
      ∧ GoesThrough y items ∧ List.Forall₂ l.names.Takes items bounds) :
    p.render l.text v
      = .ok (String.ofList (bounds.flatMap fun b => (l.body.filled p.escapes (v.extend b)).toList)) := by
  have hend : l.chars.getLast? = some '\x7d' := by
    simp [Loop.chars, endLoopChars, List.getLast?_cons, List.getLast?_append]
  refine render_of_stages hend (cuts_loop l) (yields_loopTemplate l) ?_
  rintro _ ⟨stmt, rfl, hstmt⟩ s hs
  rw [← hs.mode] at h
  exact evalStmts_loop l hstmt hs h

end Policy

end Stencil
