import Stencil.Decimal.Rounded
import Stencil.Template.Filter.Number
import Stencil.Template.Filter.Text

/-!
# Patterns

A pattern is a text with slots for values. A slot starts with a percent sign, followed by the key of
an entry in brackets, flags, a width, a precision, a size that has no effect, and the letter of a form;
two percent signs stand for one. `Pattern.ofText?` takes a pattern apart and `Pattern.fill` fills its
slots.
-/

namespace Stencil.Template

open Decimal

/-! ## Slots and pieces -/

/-- The forms that a slot writes values in. Those with letters of their own among their digits come in
either letter case. -/
inductive SlotForm where
  | text
  | character
  | decimal
  | octal
  | hexadecimal (upper : Bool)
  /-- A number with a fixed number of places. -/
  | positional (upper : Bool)
  /-- A number with an exponent. -/
  | scientific (upper : Bool)
  /-- A number with a fixed number of digits. -/
  | compact (upper : Bool)
  deriving DecidableEq, Repr

def SlotForm.ofLetter? (c : Char) : Option SlotForm :=
  match c with
  | 's' => some .text
  | 'c' => some .character
  | 'd' | 'i' => some .decimal
  | 'o' => some .octal
  | 'x' => some (.hexadecimal false)
  | 'X' => some (.hexadecimal true)
  | 'f' => some (.positional false)
  | 'F' => some (.positional true)
  | 'e' => some (.scientific false)
  | 'E' => some (.scientific true)
  | 'g' => some (.compact false)
  | 'G' => some (.compact true)
  | _ => none

/-- Whether a form is for numbers with places after the point. -/
def SlotForm.isReal : SlotForm → Bool
  | .positional _ | .scientific _ | .compact _ => true
  | _ => false

/-- The flags of a slot. -/
structure SlotFlags where
  /-- Blanks follow the text instead of preceding it. -/
  leftAligned : Bool
  /-- Numbers without a minus sign get a plus sign. -/
  plus : Bool
  /-- Numbers without a sign get a blank. -/
  blank : Bool
  /-- The radix is marked, and the point and the zeros after it are kept. -/
  alternate : Bool
  /-- Zeros instead of blanks precede a number. -/
  zeros : Bool

/-- A place in a pattern that a value is written to. -/
structure Slot where
  /-- The key of the entry that is written; without a key the next argument is. -/
  key : Option String
  flags : SlotFlags
  width : Nat
  precision : Option Nat
  form : SlotForm

/-- A piece of a pattern. -/
inductive Piece where
  | literal (c : Char)
  | slot (s : Slot)

abbrev Pattern := List Piece

/-! ## Taking patterns apart -/

/-- Reads the key of a slot, if it has one; none if its bracket is not closed. -/
def slotKey? : List Char → Option (Option String × List Char)
  | '(' :: cs =>
      match cs.dropWhile (· != ')') with
      | [] => none
      | _ :: rest => some (some (String.ofList (cs.takeWhile (· != ')'))), rest)
  | cs => some (none, cs)

def slotFlags (f : SlotFlags) : List Char → SlotFlags × List Char
  | '-' :: cs => slotFlags { f with leftAligned := true } cs
  | '+' :: cs => slotFlags { f with plus := true } cs
  | ' ' :: cs => slotFlags { f with blank := true } cs
  | '#' :: cs => slotFlags { f with alternate := true } cs
  | '0' :: cs => slotFlags { f with zeros := true } cs
  | cs => (f, cs)

/-- Reads a width or a precision, whose digits may be missing; none if it has no place in 64 bits. -/
def measure? (cs : List Char) : Option (Option Nat × List Char) :=
  let (ds, rest) := spanDigits cs
  if ds.isEmpty then some (none, rest)
  else if ofDigits ds ≥ twoTo 64 then none
  else some (some (ofDigits ds), rest)

/-- Reads a precision, which follows a point. -/
def precision? : List Char → Option (Option Nat × List Char)
  | '.' :: cs => measure? cs
  | cs => some (none, cs)

def withoutSize : List Char → List Char
  | 'h' :: cs | 'l' :: cs | 'L' :: cs => cs
  | cs => cs

/-- Reads a slot after its percent sign. -/
def Slot.ofText? (cs : List Char) : Option (Slot × List Char) := do
  let (key, cs) ← slotKey? cs
  let (flags, cs) := slotFlags ⟨false, false, false, false, false⟩ cs
  let (width, cs) ← measure? cs
  let (precision, cs) ← precision? cs
  match withoutSize cs with
  | c :: cs =>
      let form ← SlotForm.ofLetter? c
      pure (⟨key, flags, width.getD 0, precision, form⟩, cs)
  | [] => none

/-- The pieces of a text of at most so many characters. -/
def piecesWithin : Nat → List Char → Option Pattern
  | _, [] => some []
  | 0, _ => some []
  | n + 1, '%' :: '%' :: cs => (piecesWithin n cs).map (.literal '%' :: ·)
  | n + 1, '%' :: cs => do
      let (s, cs) ← Slot.ofText? cs
      pure (.slot s :: (← piecesWithin n cs))
  | n + 1, c :: cs => (piecesWithin n cs).map (.literal c :: ·)

/-- The pieces of a text; none if a slot is not well formed. -/
def Pattern.ofText? (cs : List Char) : Option Pattern := piecesWithin cs.length cs

/-! ## Filling slots -/

/-- The sign that is written in front of a number. -/
def SlotFlags.sign (f : SlotFlags) (negative : Bool) : List Char :=
  if negative then ['-'] else if f.plus then ['+'] else if f.blank then [' '] else []

/-- How many bytes characters take. -/
def byteCount (cs : List Char) : Nat := cs.foldl (fun n c => n + c.utf8Size) 0

/-- A text of a given size with blanks up to the width of a slot. -/
def Slot.filled (s : Slot) (size : Nat) (cs : List Char) : List Char :=
  let blanks := List.replicate (s.width - size) ' '
  if s.flags.leftAligned then cs ++ blanks else blanks ++ cs

/-- A text with blanks up to the width of a slot, which counts bytes. -/
def Slot.padded (s : Slot) (cs : List Char) : List Char := s.filled (byteCount cs) cs

/-- A number with blanks up to the width of a slot, or with zeros between its sign and its digits. -/
def Slot.number (s : Slot) (sign ds : List Char) : List Char :=
  if s.flags.zeros && !s.flags.leftAligned then
    sign ++ List.replicate (s.width - (sign.length + ds.length)) '0' ++ ds
  else s.padded (sign ++ ds)

/-- A text with its letters in upper case where that is asked for. -/
def inCase (upper : Bool) (cs : List Char) : List Char := if upper then cs.map Char.toUpper else cs

/-- An integer in a radix, behind the mark of the radix where it is marked. -/
def Slot.integer (s : Slot) (radix : Nat) (mark : List Char) (n : Int) : List Char :=
  s.number (s.flags.sign (n < 0) ++ if s.flags.alternate then mark else [])
    (Nat.toDigits radix n.natAbs)

/-- An integer as a magnitude. -/
def binaryOfInt (n : Int) : Binary := ⟨n < 0, n.natAbs, 0⟩

/-- A number by the way a magnitude is written. What is not a number has no sign. -/
def Slot.real? (s : Slot) (write : Binary → List Char) : Value → Option (List Char)
  | .float x =>
      match Binary.ofFloat? x.value with
      | some b => some (s.number (s.flags.sign b.negative) (write b))
      | none =>
          if x.isNaN then some (s.number [] "nan".toList)
          else some (s.number (s.flags.sign x.isNegative) "inf".toList)
  | v => v.wholeNumber?.map fun n => s.number (s.flags.sign (n < 0)) (write (binaryOfInt n))

/-- The number of places or digits unless a slot tells another. -/
def usualPrecision : Nat := 6

/-- How many places or digits a slot asks for. -/
def Slot.places (s : Slot) : Nat := s.precision.getD usualPrecision

/-- A magnitude in as few digits as a slot asks for. Zeros at the end are kept where the slot says so,
but not those of zero, nor any behind an integer. -/
def Slot.compact (s : Slot) (isInteger : Bool) (b : Binary) : List Char :=
  let r := Rounded.compact b s.places
  let keeps := s.flags.alternate && b.mantissa != 0 && !(isInteger && r.exponent.isNone)
  (if keeps then r else r.trimmed).write false

/-- A magnitude as a text: in as few digits as a slot asks for, with one behind the point at least. -/
def Slot.pointed (s : Slot) (b : Binary) : List Char :=
  let r := (Rounded.compact b (min s.places maxDigits)).trimmed
  if r.fraction.isEmpty && r.exponent.isNone then (Rounded.mk r.whole ['0'] none).write false
  else r.write false

/-- A slot that gives numbers no sign but a minus sign. -/
def Slot.unmarked (s : Slot) : Slot :=
  { s with flags := { s.flags with plus := false, blank := false, alternate := false } }

/-- What a slot for texts writes for a value. Numbers are written as such; other texts are cut off at
the precision, truth values apart. -/
def Slot.text (s : Slot) (v : Value) : List Char :=
  match v with
  | .int n => s.unmarked.integer 10 [] n.value
  | .float _ => (s.unmarked.real? s.pointed v).getD []
  | .bool _ => s.padded v.plainText
  | _ => s.padded ((s.precision.map (v.plainText.take ·)).getD v.plainText)

/-- The character that a value is: a text of one character, or the code of one. -/
def Value.char? : Value → Option Char
  | .string t _ =>
      match t.toList with
      | [c] => some c
      | _ => Option.none
  | .int n =>
      if 0 ≤ n.value && n.value.toNat.isValidChar then some (Char.ofNat n.value.toNat) else Option.none
  | _ => Option.none

/-- The greatest width of a slot, and the greatest number of places that are written. -/
def maxMeasure : Nat := 100000000

/-- What a slot writes for a value; none if it cannot. -/
def Slot.write? (s : Slot) (v : Value) : Option (List Char) :=
  if max s.width (if s.form.isReal then s.places else 0) > maxMeasure then none
  else
    match s.form with
    | .text => some (s.text v)
    | .character => v.char?.map fun c => s.filled 1 [c]
    | .decimal => v.wholeNumber?.map (s.integer 10 [])
    | .octal => v.wholeNumber?.map (s.integer 8 ['0', 'o'])
    | .hexadecimal upper => v.wholeNumber?.map fun n => inCase upper (s.integer 16 ['0', 'x'] n)
    | .positional upper =>
        (s.real? (fun b => (Rounded.positional b s.places).write s.flags.alternate) v).map
          (inCase upper)
    | .scientific upper =>
        (s.real? (fun b => (Rounded.scientific b s.places).write s.flags.alternate) v).map
          (inCase upper)
    | .compact upper => (s.real? (s.compact v.whole?.isSome) v).map (inCase upper)

/-- The value under a key of the first argument. What is undefined is not there. -/
def keyed? (args : List Value) (key : String) : Option Value :=
  (args.head?.bind (·.lookup? (.text key))).filter fun v => v.kind != .undefined

/-- A pattern with its slots filled: those with a key from `args`, and the others from values in turn.
Values for texts are prepared first. Values may be left over. -/
def Pattern.fill (prepare : Value → Except Cause Value) (args : List Value) :
    Pattern → List Value → Except Cause (List Char)
  | [], _ => .ok []
  | .literal c :: pieces, vs => (Pattern.fill prepare args pieces vs).map (c :: ·)
  | .slot s :: pieces, vs => do
      let v? := match s.key with
        | some key => keyed? args key
        | none => vs.head?
      match v? with
      | none => .error .invalidOperation
      | some v =>
          let v ← if s.form = .text then prepare v else .ok v
          match s.write? v with
          | none => .error .invalidOperation
          | some cs =>
              let rest := if s.key.isSome then vs else vs.drop 1
              pure (cs ++ (← Pattern.fill prepare args pieces rest))

namespace Filter

open Take

/-- A pattern with its slots filled by the arguments. What comes as a text into a safe pattern is
escaped first. -/
def format (mode : EscapeMode) : Take Value := do
  let (cs, isSafe) ← marked
  let args ← rest
  match Pattern.ofText? cs with
  | none => invalid
  | some pattern =>
      let prepare := fun v => if isSafe then escapedStrictly mode v else .ok v
      let filled ← finish (pattern.fill prepare args args)
      pure (.string (String.ofList filled) isSafe)

end Filter

end Stencil.Template
