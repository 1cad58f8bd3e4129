import Stencil.Proofs.Yaml.Reading

/-!
# The atoms of a document

A node ends in scalars and aliases, its atoms. Reading takes them from the tokens in order and drops none: what is
read from the front of some tokens has the atoms that these have in front of the rest. So the entries of a mapping
are in the order in which they are written, at every depth. A plain scalar without a text is no atom,
since it stands where nothing is written.

Main statement: `atoms_of_document?`.
-/

namespace Stencil.Yaml

/-- A node without parts: a scalar as it says, or a reference to another node. -/
inductive Atom where
  | scalar (plain : Bool) (text : String)
  | alias
  deriving DecidableEq, Repr

/-- A scalar as an atom, unless nothing need be written for it. -/
def scalarAtoms (plain : Bool) (text : String) : List Atom :=
  if plain && text == "" then [] else [.scalar plain text]

/-- The atom that a token is, if it is one. -/
def Token.atoms : Token → List Atom
  | .scalar plain text => scalarAtoms plain text
  | .alias _ => [.alias]
  | _ => []

def atomsOf (ts : List Token) : List Atom := ts.flatMap Token.atoms

@[simp] theorem atomsOf_nil : atomsOf [] = [] := rfl

@[simp] theorem atomsOf_cons (t : Token) (ts : List Token) : atomsOf (t :: ts) = t.atoms ++ atomsOf ts := rfl

mutual

/-- The atoms of a node, in order. -/
def Node.atoms {α : Type} : Node α → List Atom
  | .scalar _ _ plain text => scalarAtoms plain text
  | .sequence _ _ items => atomsOfItems items
  | .mapping _ _ entries => atomsOfEntries entries
  | .alias _ => [.alias]

def atomsOfItems {α : Type} : List (Node α) → List Atom
  | [] => []
  | v :: vs => v.atoms ++ atomsOfItems vs

/-- The atoms of entries, of each the key in front of the value. -/
def atomsOfEntries {α : Type} : List (Node α × Node α) → List Atom
  | [] => []
  | (k, v) :: es => k.atoms ++ (v.atoms ++ atomsOfEntries es)

end

/-! ## Reading -/

def Part.atoms : Part → List Atom
  | .node v => v.atoms
  | .items vs => atomsOfItems vs
  | .entries es => atomsOfEntries es

variable {ts rest : List Token} {part : Part}

theorem Token.atoms_of_isSign {t : Token} (h : t.isSign = true) : t.atoms = [] := by
  cases t <;> first | contradiction | rfl

/-- **What is read has the atoms of the tokens that it is read from**, in their order. -/
theorem Reads.atomsOf_eq (h : Reads ts part rest) : atomsOf ts = part.atoms ++ atomsOf rest := by
  induction h with
  | sign ht _ ih => rw [atomsOf_cons, Token.atoms_of_isSign ht, List.nil_append, ih]
  | sequence _ _ _ ih | mapping _ _ _ ih | flowSequence _ _ _ ih | flowMapping _ _ _ ih => exact ih
  | item _ _ ihv ihvs =>
      rw [ihv, ihvs]
      exact (List.append_assoc ..).symm
  | entry _ _ _ ihk ihv ihes =>
      rw [ihk, ihv, ihes]
      simp [Part.atoms, atomsOfEntries]
  | _ => rfl

/-- **A document has the atoms of its tokens, in their order.** -/
theorem atoms_of_document? {node : Node String} (h : document? ts = some node) : node.atoms = atomsOf ts := by
  obtain ⟨rest, hreads, hends⟩ := exists_reads_of_document? h
  have hrest : atomsOf rest = [] := by
    refine List.flatMap_eq_nil_iff.mpr fun t ht => ?_
    rw [hends t ht]
    rfl
  rw [hreads.atomsOf_eq, hrest, List.append_nil]
  rfl

end Stencil.Yaml
