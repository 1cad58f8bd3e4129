import Stencil.Yaml.Node
import Stencil.Yaml.Token

/-!
# Reading nodes from tokens

The grammar of documents over tokens. A node is read from the front of a list of tokens together with
the tokens after it. The recursion is on the depth of nesting that is left; the loops over items and
entries take the reader of a node as a parameter and are bounded by the number of tokens.
-/

namespace Stencil.Yaml

/-- What the handles of tags stand for. -/
abbrev Handles := List (String × String)

/-- The handles that need no directive. -/
def Handles.standard : Handles := [("!", "!"), ("!!", "tag:yaml.org,2002:")]

/-- A tag in full; none if its handle is not known. -/
def Handles.resolve? (handles : Handles) (handle suffix : String) : Option String :=
  if handle = "" then some suffix
  else
    match (handles ++ Handles.standard).find? (·.1 == handle) with
    | some (_, expansion) => some (expansion ++ suffix)
    | none => none

/-- The tokens after a token that a list starts with. -/
def after? (t : Token) : List Token → Option (List Token)
  | [] => none
  | u :: ts => if u = t then some ts else none

def startsWith (options : List Token) : List Token → Bool
  | [] => false
  | t :: _ => options.contains t

/-! ## Properties -/

/-- The anchor and the tag in front of a node. -/
structure Properties where
  anchor : Option String
  tag : Option String
  deriving DecidableEq, Repr

def Properties.isPresent (p : Properties) : Bool := p.anchor.isSome || p.tag.isSome

/-- Reads the properties of a node, an anchor and a tag in either order. -/
def properties? (handles : Handles) : List Token → Option (Properties × List Token)
  | .anchor a :: .tag h s :: ts => (handles.resolve? h s).map fun t => (⟨some a, some t⟩, ts)
  | .tag h s :: .anchor a :: ts => (handles.resolve? h s).map fun t => (⟨some a, some t⟩, ts)
  | .anchor a :: ts => some (⟨some a, none⟩, ts)
  | .tag h s :: ts => (handles.resolve? h s).map fun t => (⟨none, some t⟩, ts)
  | ts => some (⟨none, none⟩, ts)

/-! ## Collections

In each loop `item` reads a node, with a flag that says whether a sequence may stand at the column
of the mapping it belongs to. -/

abbrev ItemReader := (indentless : Bool) → List Token → Option (Node String × List Token)

/-- Reads a node, or an empty one when the list starts with one of the tokens that may follow it. -/
def nodeUnless (item : ItemReader) (indentless : Bool) (ends : List Token) (ts : List Token) :
    Option (Node String × List Token) :=
  if startsWith ends ts then some (.empty, ts) else item indentless ts

/-- The items of a block sequence, with its end. -/
def blockItems (item : ItemReader) : Nat → List Token → Option (List (Node String) × List Token)
  | 0, _ => none
  | n + 1, .blockEntry :: ts => do
      let (v, ts) ← nodeUnless item false [.blockEntry, .blockEnd] ts
      let (vs, ts) ← blockItems item n ts
      some (v :: vs, ts)
  | _ + 1, .blockEnd :: ts => some ([], ts)
  | _ + 1, _ => none

/-- The items of a sequence at the column of the mapping around it; it ends where no item
follows. -/
def indentlessItems (item : ItemReader) :
    Nat → List Token → Option (List (Node String) × List Token)
  | 0, _ => none
  | n + 1, .blockEntry :: ts => do
      let (v, ts) ← nodeUnless item false [.blockEntry, .key, .value, .blockEnd] ts
      let (vs, ts) ← indentlessItems item n ts
      some (v :: vs, ts)
  | _ + 1, ts => some ([], ts)

/-- The value of an entry, which is empty when no value token follows. -/
def blockValue (item : ItemReader) : List Token → Option (Node String × List Token)
  | .value :: ts => nodeUnless item true [.key, .value, .blockEnd] ts
  | ts => some (.empty, ts)

/-- The entries of a block mapping, with its end. -/
def blockEntries (item : ItemReader) :
    Nat → List Token → Option (List (Node String × Node String) × List Token)
  | 0, _ => none
  | n + 1, .key :: ts => do
      let (k, ts) ← nodeUnless item true [.key, .value, .blockEnd] ts
      let (v, ts) ← blockValue item ts
      let (es, ts) ← blockEntries item n ts
      some ((k, v) :: es, ts)
  | _ + 1, .blockEnd :: ts => some ([], ts)
  | _ + 1, _ => none

/-- The value of an entry in brackets that `stop` closes. -/
def flowValue (item : ItemReader) (stop : Token) :
    List Token → Option (Node String × List Token)
  | .value :: ts => nodeUnless item false [.flowEntry, stop] ts
  | ts => some (.empty, ts)

/-- A mapping of one entry, as an item between brackets. A missing key takes the token with it that
is found in its place. -/
def singleEntry (item : ItemReader) (ts : List Token) : Option (Node String × List Token) := do
  let (k, ts) ←
    if startsWith [.value, .flowEntry, .flowSequenceEnd] ts then
      some (Node.empty, ts.drop 1)
    else item false ts
  let (v, ts) ← flowValue item .flowSequenceEnd ts
  some (.mapping none none [(k, v)], ts)

/-- The items between square brackets, with the closing one. The flag tells whether an item may
stand here, which is so at the start and after a comma. -/
def flowItems (item : ItemReader) :
    Nat → Bool → List Token → Option (List (Node String) × List Token)
  | 0, _, _ => none
  | _ + 1, _, .flowSequenceEnd :: ts => some ([], ts)
  | n + 1, false, .flowEntry :: ts => flowItems item n true ts
  | _ + 1, false, _ => none
  | n + 1, true, .key :: ts => do
      let (v, ts) ← singleEntry item ts
      let (vs, ts) ← flowItems item n false ts
      some (v :: vs, ts)
  | n + 1, true, ts => do
      let (v, ts) ← item false ts
      let (vs, ts) ← flowItems item n false ts
      some (v :: vs, ts)

/-- The entries between braces, with the closing one. -/
def flowEntries (item : ItemReader) :
    Nat → Bool → List Token → Option (List (Node String × Node String) × List Token)
  | 0, _, _ => none
  | _ + 1, _, .flowMappingEnd :: ts => some ([], ts)
  | n + 1, false, .flowEntry :: ts => flowEntries item n true ts
  | _ + 1, false, _ => none
  | n + 1, true, .key :: ts => do
      let (k, ts) ← nodeUnless item false [.value, .flowEntry, .flowMappingEnd] ts
      let (v, ts) ← flowValue item .flowMappingEnd ts
      let (es, ts) ← flowEntries item n false ts
      some ((k, v) :: es, ts)
  | n + 1, true, ts => do
      let (k, ts) ← item false ts
      let (es, ts) ← flowEntries item n false ts
      some ((k, .empty) :: es, ts)

/-! ## Nodes -/

/-- Reads the collection that starts at the front of a list, with `item` for the nodes in it. -/
def collection? (item : ItemReader) (p : Properties) (indentless : Bool) (ts : List Token) :
    Option (Node String × List Token) :=
  match ts with
  | .blockEntry :: _ =>
      if indentless then
        (indentlessItems item ts.length ts).map fun (vs, ts) => (.sequence p.anchor p.tag vs, ts)
      else none
  | .blockSequence :: ts =>
      (blockItems item ts.length ts).map fun (vs, ts) => (.sequence p.anchor p.tag vs, ts)
  | .blockMapping :: ts =>
      (blockEntries item ts.length ts).map fun (es, ts) => (.mapping p.anchor p.tag es, ts)
  | .flowSequence :: ts =>
      (flowItems item ts.length true ts).map fun (vs, ts) => (.sequence p.anchor p.tag vs, ts)
  | .flowMapping :: ts =>
      (flowEntries item ts.length true ts).map fun (es, ts) => (.mapping p.anchor p.tag es, ts)
  | _ => none

/-- Whether a collection starts at the front of a list. -/
def startsCollection (indentless : Bool) (ts : List Token) : Bool :=
  startsWith [.blockSequence, .blockMapping, .flowSequence, .flowMapping] ts
    || (indentless && startsWith [.blockEntry] ts)

/-- Reads a node without its properties. Properties alone make an empty scalar. -/
def content? (collection : Option (Node String × List Token)) (p : Properties) (indentless : Bool)
    (ts : List Token) : Option (Node String × List Token) :=
  if startsCollection indentless ts then collection
  else
    match ts with
    | .scalar plain text :: ts => some (.scalar p.anchor p.tag plain text, ts)
    | _ => if p.isPresent then some (.scalar p.anchor p.tag true "", ts) else none

/-- Reads a node in which collections are nested at most `depth` levels deep. -/
def node? (handles : Handles) : Nat → ItemReader
  | 0, indentless, ts =>
      match ts with
      | .alias a :: ts => some (.alias a, ts)
      | _ =>
          (properties? handles ts).bind fun (p, ts) => content? none p indentless ts
  | d + 1, indentless, ts =>
      match ts with
      | .alias a :: ts => some (.alias a, ts)
      | _ =>
          (properties? handles ts).bind fun (p, ts) =>
            content? (collection? (node? handles d) p indentless ts) p indentless ts

/-- How many collections may be open at one place. -/
def maxDepth : Nat := 128

/-! ## Documents -/

/-- Whether a version of the format can be read. -/
def isKnownVersion (major minor : Nat) : Bool := major == 1 && (minor == 1 || minor == 2)

/-- Reads the directives of a document: at most one version, and no handle twice. -/
def directives? (versioned : Bool) (handles : Handles) : List Token → Option (Handles × List Token)
  | .version major minor :: ts =>
      if !versioned && isKnownVersion major minor then directives? true handles ts else none
  | .tagHandle handle expansion :: ts =>
      if handles.any (·.1 == handle) then none
      else directives? versioned (handles ++ [(handle, expansion)]) ts
  | ts => some (handles, ts)

/-- Whether a token belongs to what stands between documents. -/
def isBetweenDocuments : Token → Bool
  | .version _ _ | .tagHandle _ _ | .documentStart | .documentEnd => true
  | _ => false

/-- Reads the node of a document that has been opened by a mark; it may be missing. -/
def openedNode? (handles : Handles) (ts : List Token) : Option (Node String × List Token) :=
  match ts with
  | [] => some (.empty, [])
  | t :: _ => if isBetweenDocuments t then some (.empty, ts) else node? handles maxDepth false ts

/-- Reads the node of the first document. A document without a mark has no directives. -/
def firstNode? (ts : List Token) : Option (Node String × List Token) :=
  match ts with
  | [] => some (.empty, [])
  | t :: _ =>
      if isBetweenDocuments t && t != .documentEnd then do
        let (handles, ts) ← directives? false [] ts
        let ts ← after? .documentStart ts
        openedNode? handles ts
      else node? [] maxDepth false ts

/-- Reads tokens that hold one document, or none at all. -/
def document? (ts : List Token) : Option (Node String) :=
  match firstNode? ts with
  | none => none
  | some (node, ts) => if ts.all (· == .documentEnd) then some node else none

end Stencil.Yaml
