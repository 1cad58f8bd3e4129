import Stencil.Template.Arguments
import Stencil.Template.Escape
import Stencil.Text.Case
import Stencil.Text.Blank
import Stencil.Text.Occurrence

/-!
# Filters on texts

Letter case, trimming, cutting and joining. A text that is marked as safe stays so when only its
letter case or its ends change, and so do its pieces; a text that is made of safe and other parts is
safe when the other parts are escaped.
-/

namespace Stencil.Template.Filter

open Take

/-! ## Letter case and ends -/

/-- The text of a value through a function, safe if the value was. -/
def mapped (f : List Char → List Char) (v : Value) : Option Value :=
  v.anyText?.map fun s => .string (String.ofList (f s.toList)) v.isSafe

/-- A filter that changes the characters of a text. -/
def changing (f : List Char → List Char) : Take Value := do
  let v ← one (.required (mapped f))
  done
  pure v

/-- The text with each word capitalized; `starts` tells whether a word starts here. -/
def titled (starts : Bool) : List Char → List Char
  | [] => []
  | c :: cs =>
      if Text.isAsciiPunctuation c || Text.isBlank c then c :: titled true cs
      else (if starts then Text.upperChar c else Text.lowerChar c) ++ titled false cs

/-- The text of a value with each word capitalized. It is not safe, as it is made of its words. -/
def title : Take Value := do
  let s ← anyText
  done
  pure (.chars (titled true s.toList))

/-- Drops characters of a set at both ends of a text. -/
def trimSet (set : List Char) (cs : List Char) : List Char :=
  let inSet := fun c => set.contains c
  ((cs.dropWhile inSet).reverse.dropWhile inSet).reverse

/-- A text without the blanks, or without the given characters, at its ends. -/
def trim : Take Value := do
  let v ← value
  match v.anyText? with
  | none => invalid
  | some s =>
      let set ← anyText?
      done
      let cut := match set with
        | none => Text.trim s.toList
        | some set => trimSet set.toList s.toList
      pure (.string (String.ofList cut) v.isSafe)

/-! ## Replacing and cutting -/

/-- The pieces of a text between at most `n` occurrences of a word that is not empty. -/
def piecesOf (word : List Char) : Nat → List Char → List (List Char)
  | 0, cs => [cs]
  | n + 1, cs =>
      match Text.cutAt word cs with
      | none => [cs]
      | some (lead, rest) => lead :: piecesOf word n rest

/-- The characters of a text as pieces, with an empty piece at either end, and at most `n` cuts. -/
def characterPieces (n : Nat) (cs : List Char) : List (List Char) :=
  match n with
  | 0 => [cs]
  | n + 1 =>
      [] :: (cs.take n).map (fun c => [c])
        ++ (if n ≤ cs.length then [cs.drop n] else [[]])

/-- The pieces of a text between at most `n` occurrences of a word; the empty word occurs around
every character. -/
def pieces (word : List Char) (n : Nat) (cs : List Char) : List (List Char) :=
  if word.isEmpty then characterPieces n cs else piecesOf word n cs

def allPieces (word : List Char) (cs : List Char) : List (List Char) := pieces word (cs.length + 2) cs

/-- Whether values are combined as safe texts: where values are escaped and one of them is safe. -/
def combinesSafely (mode : EscapeMode) (vs : List Value) : Bool :=
  mode != .none && vs.any Value.isSafe

def textual : Take Value := one (.required fun v => v.anyText?.map fun _ => v)

/-- Takes a value that has a text, which may be left out. -/
def textual? : Take (Option Value) := one (.optional fun v => v.anyText?.map fun _ => v)

/-- The text of a value, escaped unless it is safe. -/
def escapedText (mode : EscapeMode) (v : Value) : Except Cause (List Char) :=
  (escapedStrictly mode v).map Value.plainText

/-- The text of a value, which is escaped as a text unless the value is safe. -/
def escapedPlainText (mode : EscapeMode) (v : Value) : Except Cause (List Char) :=
  escapedText mode (.string v.plain v.isSafe)

/-- A text with every occurrence of one text replaced by another. -/
def replacedAll (old new cs : List Char) : List Char := Text.join new (allPieces old cs)

/-- A text with every occurrence of one text replaced by another. Beside safe texts the text and what
is put into it are escaped first. -/
def replace (mode : EscapeMode) : Take Value := do
  let v ← textual
  let old ← textual
  let new ← textual
  done
  if combinesSafely mode [v, old, new] then
    let cs ← finish (escapedPlainText mode v)
    let inserted ← finish (escapedPlainText mode new)
    pure (.string (String.ofList (replacedAll old.plainText inserted cs)) true)
  else pure (.chars (replacedAll old.plainText new.plainText v.plainText))

/-- The words of a text, of which there are at most `n`. -/
def wordsWithin : Nat → List Char → List (List Char)
  | 0, _ => []
  | n + 1, cs =>
      match Text.trimStart cs with
      | [] => []
      | c :: cs =>
          (c :: cs).takeWhile (!Text.isBlank ·)
            :: wordsWithin n ((c :: cs).dropWhile (!Text.isBlank ·))

def words (cs : List Char) : List (List Char) := wordsWithin cs.length cs

/-- The words of a text up to a number of pieces, the last of which is all that is left. Blanks that
no word follows are a piece too. -/
def wordPieces : Nat → List Char → List (List Char)
  | 0, cs =>
      match Text.trimStart cs with
      | [] => if cs.isEmpty then [] else [cs]
      | rest => [rest]
  | n + 1, cs =>
      match Text.trimStart cs with
      | [] => if cs.isEmpty then [] else [cs]
      | c :: cs =>
          (c :: cs).takeWhile (!Text.isBlank ·)
            :: wordPieces n ((c :: cs).dropWhile (!Text.isBlank ·))

/-- Takes a text with its mark. -/
def marked : Take (List Char × Bool) :=
  one (.required fun
    | .string s mark => some (s.toList, mark)
    | _ => none)

/-- Pieces of a text, which are safe if the text was. -/
def piecesWith (mark : Bool) (found : List (List Char)) : Value :=
  .ofItems (found.map fun cs => .string (String.ofList cs) mark)

/-- Cuts a text at its blanks, or at every occurrence of another text; the number of cuts may be
limited. -/
def split : Take Value := do
  let (cs, mark) ← marked
  let separator ← text?
  let limit ← int?
  done
  let limit := limit.bind fun n => if n < 0 then none else some n.toNat
  let found := match separator, limit with
    | none, none => words cs
    | none, some n => wordPieces n cs
    | some word, none => allPieces word.toList cs
    | some word, some n => pieces word.toList n cs
  pure (piecesWith mark found)

def lines : Take Value := do
  let (cs, mark) ← marked
  done
  pure (piecesWith mark (Text.lines cs))

/-! ## Joining and indenting -/

/-- Items as texts with a joiner between them. Beside safe texts the items are written as they are
printed, and the text of the joiner is escaped. -/
def joined (mode : EscapeMode) (joiner : Value) (items : List Value) : Except Cause Value := do
  if combinesSafely mode (joiner :: items) then
    let texts ← items.mapM (printed mode)
    let between ← escapedPlainText mode joiner
    pure (.string (String.ofList (Text.join between texts)) true)
  else pure (.chars (Text.join joiner.plainText (items.map Value.plainText)))

/-- The items of a value joined into a text. -/
def join (mode : EscapeMode) : Take Value := do
  let v ← value
  let joiner ← textual?
  done
  finish (joined mode (joiner.getD (.text "")) (← Take.items v))

/-- A line after so many blanks; an empty line stays empty unless told otherwise. -/
def indentLine (blanks : List Char) (evenEmpty : Bool) (line : List Char) : List Char :=
  if line.isEmpty then (if evenEmpty then blanks else []) else blanks ++ line

/-- A text with its lines indented. -/
def indented (width : Nat) (first evenEmpty : Bool) (cs : List Char) : List Char :=
  let blanks := List.replicate width ' '
  let rows := match Text.split '\n' (Text.dropLineEnd cs) with
    | [] => []
    | row :: rows =>
        (if first then indentLine blanks evenEmpty row else row)
          :: rows.map (indentLine blanks evenEmpty)
  Text.dropLineEnd (rows.flatMap (· ++ ['\n']))

/-- How far lines are indented unless told otherwise. -/
def usualIndent : Nat := 4

/-- Indents the lines of a text, the first only when asked to. A safe text stays safe. -/
def indent : Take Value := do
  let fields ← keywords
  let v ← textual
  let width ← count?
  let first ← bool?
  let evenEmpty ← bool?
  done
  let (width, widthNames) ← unlessGiven width fields "width" (.optional Value.count?)
  let (first, firstNames) ← unlessGiven first fields "first" (.optional Value.bool?)
  let (evenEmpty, emptyNames) ← unlessGiven evenEmpty fields "blank" (.optional Value.bool?)
  onlyKeywords fields (widthNames ++ firstNames ++ emptyNames)
  let cs := indented (width.getD usualIndent) (first.getD false) (evenEmpty.getD false) v.plainText
  pure (.string (String.ofList cs) v.isSafe)

/-! ## Marks and defaults -/

/-- Marks the text of a value as safe. -/
def safe : Take Value := do
  let s ← anyText
  done
  pure (.string s true)

def string : Take Value := do
  let v ← value
  done
  match v with
  | .string s mark => pure (.string s mark)
  | v => pure (.chars v.plainText)

/-- The text of a value with its parts on lines of their own. -/
def layered : Take Value := do
  let v ← value
  done
  pure (.chars (v.layeredText 0))

/-- The text of a value and a newline. -/
def newline : Take Value := do
  let v ← value
  done
  pure (.chars (v.plainText ++ ['\n']))

/-- A value, or a fallback where there is none; with the flag also where the value counts as false. -/
def withFallback (v : Value) (fallback : Option Value) (evenFalse : Bool) : Value :=
  if v.isUnset || (evenFalse && !v.isTrue) then fallback.getD (.text "") else v

/-- A value or its fallback. -/
def default : Take Value := do
  let v ← value
  let fallback ← value?
  let evenFalse ← bool?
  done
  pure (withFallback v fallback (evenFalse.getD false))

end Stencil.Template.Filter
