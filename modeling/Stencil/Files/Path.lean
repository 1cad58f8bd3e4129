import Stencil.Text.Lines

/-!
# Paths

A path is kept as the text it was given as, because messages show it that way. What it means is read
off its segments, the pieces between slashes: an empty segment and a dot stay where they are, two dots
go up, and anything else is a name.
-/

namespace Stencil

/-- A path as it was written. -/
structure Path where
  text : String
  deriving DecidableEq, Repr

namespace Path

/-- The pieces of a path between slashes. -/
def segments (p : Path) : List String := (Text.split '/' p.text.toList).map String.ofList

/-- The path that pieces make. -/
def ofSegments (segments : List String) : Path :=
  ⟨String.ofList (Text.join ['/'] (segments.map String.toList))⟩

/-- Whether a path starts at the top of the tree and not in the working directory. -/
def isAbsolute (p : Path) : Bool := p.text.toList.head? == some '/'

/-- Whether a segment stays where it is. -/
def isIdle (segment : String) : Bool := segment == "" || segment == "."

/-- The steps of a path, last first: its segments without those that stay where they are. A dot that a
path starts with counts as a step. -/
def steps (p : Path) : List String :=
  match p.segments with
  | [] => []
  | first :: rest =>
      (rest.filter fun s => !isIdle s).reverse ++ if first = "" then [] else [first]

/-- The directory that the last step of a path is taken from, when the path names one. -/
def parent? (p : Path) : Option Path :=
  match p.segments with
  | [] => none
  | first :: rest =>
      match rest.reverse.dropWhile isIdle with
      | [] => none
      | _ :: before =>
          match (before.dropWhile isIdle).reverse with
          | [] => some ⟨if first = "" then "/" else first⟩
          | between => some (ofSegments (first :: between))

/-- Whether a path stands for standard input. -/
def isStandardInput (p : Path) : Bool := p.steps == ["-"] && !p.isAbsolute

/-- The part of a name after its last dot; a dot that a name starts with opens none. -/
def extensionOfName? (name : List Char) : Option (List Char) :=
  match name.reverse.dropWhile (· ≠ '.') with
  | _ :: _ :: _ => some (name.reverse.takeWhile (· ≠ '.')).reverse
  | _ => none

/-- The extension of the name that a path ends with. -/
def extension? (p : Path) : Option String :=
  match p.steps with
  | name :: _ => if name = ".." then none else (extensionOfName? name.toList).map String.ofList
  | [] => none

end Path

end Stencil
