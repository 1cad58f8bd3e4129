import Stencil.Format

/-!
# Chains of formats

A text that does not say which format it is in is tried with several, in order. The first format that
reads it wins; if none does, the answer tells what each of them had against the text.
-/

namespace Stencil

/-- Formats in the order in which they are tried, each at most once. -/
structure Chain where
  formats : List Format
  nodup : formats.Nodup

namespace Chain

/-- The chain that tries nothing. -/
def empty : Chain := ⟨[], List.nodup_nil⟩

/-- A chain with one more format at its end, unless it has the format already. -/
def add (c : Chain) (f : Format) : Chain :=
  if h : f ∈ c.formats then c
  else
    ⟨c.formats ++ [f], by
      rw [List.nodup_append]
      refine ⟨c.nodup, by simp, ?_⟩
      intro a ha b hb
      simp at hb
      intro e
      exact h (hb ▸ e ▸ ha)⟩

def addAll (c : Chain) (fs : List Format) : Chain := fs.foldl add c

def only (f : Format) : Chain := empty.add f

def standard : Chain := empty.addAll Format.all

theorem formats_add (c : Chain) (f : Format) :
    (c.add f).formats = if f ∈ c.formats then c.formats else c.formats ++ [f] := by
  unfold add
  split <;> simp [*]

@[simp] theorem formats_empty : empty.formats = [] := rfl

@[simp] theorem formats_only (f : Format) : (only f).formats = [f] := by
  simp [only, formats_add]

@[simp] theorem formats_standard : standard.formats = Format.all := by decide

/-! ## Resolving -/

/-- Variables and the format they were read in. -/
structure Resolved where
  vars : Variables
  format : Format

/-- What each format had against a text, in the order of the chain. -/
structure Unresolved where
  rejections : List (Format × Rejection)

/-- Names in a list of alternatives: commas between them, and `or` before the last. -/
def alternatives : List String → String
  | [] => "any supported format"
  | [name] => name
  | [first, last] => first ++ " or " ++ last
  | name :: names => name ++ ", " ++ alternatives names

/-- The wording of the fault. -/
def Unresolved.message (u : Unresolved) : String :=
  "Invalid input: 'template-vars' could not be parsed as "
    ++ alternatives (u.rejections.map fun r => r.1.title)

/-- The formats that were tried. -/
def Unresolved.attempted (u : Unresolved) : List Format := u.rejections.map Prod.fst

/-- What a format had against the text, if it was tried. -/
def Unresolved.rejection? (u : Unresolved) (f : Format) : Option Rejection :=
  (u.rejections.find? fun r => r.1 = f).map Prod.snd

/-- Tries formats one after the other. -/
def resolveWith (text : String) : List Format → Except Unresolved Resolved
  | [] => .error ⟨[]⟩
  | f :: fs =>
      match f.read text with
      | .ok vars => .ok ⟨vars, f⟩
      | .error rejection =>
          match resolveWith text fs with
          | .ok found => .ok found
          | .error u => .error ⟨(f, rejection) :: u.rejections⟩

/-- Reads a text in the first format of the chain that reads it. -/
def resolve (c : Chain) (text : String) : Except Unresolved Resolved := resolveWith text c.formats

end Chain

end Stencil
