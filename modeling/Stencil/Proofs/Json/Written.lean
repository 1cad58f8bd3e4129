import Stencil.Proofs.Json.Reading

/-!
# JSON texts as they are written

A JSON text holds more than the value that is read from it: white space, the way in which the characters of a
string are escaped, members that are given twice. `Written` is a value with all of this, so that what another
reader makes of the text can be told by recursion over it, and `Says` tells which value is read from it; `Piece` is
a part of it that can be looked at alone.

Main statement: `exists_says_of_parse?`.
-/

namespace Stencil.Json

/-- White space between tokens. -/
abbrev Space := {w : List Char // AllSpace w}

/-- A character of a string, as it is written. -/
inductive Glyph where
  /-- The character itself. -/
  | char (c : Char) (hl : 0x20 ≤ c.toNat) (hq : c ≠ '"') (hb : c ≠ '\\')
  /-- A letter behind a backslash, which stands for a character. -/
  | letter (c x : Char) (hx : escapeLetter? c = some x)
  /-- The digits of a code point. -/
  | code (a b c d : Char) (n : Nat) (hn : hex4? a b c d = some n) (hs : ¬ IsSurrogate n)
  /-- The digits of the two halves of a code point above the basic plane. -/
  | pair (a b c d e f g i : Char) (n m : Nat) (hn : hex4? a b c d = some n) (hm : hex4? e f g i = some m)
      (hl : 0xD800 ≤ n ∧ n < 0xDC00) (hu : 0xDC00 ≤ m ∧ m < 0xE000)

/-- What stands between the quotes of a string. -/
abbrev Quoted := List Glyph

/-- A word or a number, as it is written. -/
structure Literal where
  chars : List Char
  isLiteral : (∃ v, (chars, v) ∈ words) ∨ ∃ n, Spelled n chars

/-- The name of a member, with white space in front of it and in front of its colon. -/
structure Label where
  lead : Space
  name : Quoted
  gap : Space

mutual

/-- A value as it is written. -/
inductive Written where
  | literal (w : Literal)
  | string (q : Quoted)
  | emptyArray (space : Space)
  | array (items : WrittenItems)
  | emptyObject (space : Space)
  | object (members : WrittenMembers)

/-- Items with white space around each, up to the closing bracket. -/
inductive WrittenItems where
  | last (lead : Space) (v : Written) (behind : Space)
  | more (lead : Space) (v : Written) (behind : Space) (items : WrittenItems)

/-- Members with white space around each value, up to the closing brace. -/
inductive WrittenMembers where
  | last (label : Label) (lead : Space) (v : Written) (behind : Space)
  | more (label : Label) (lead : Space) (v : Written) (behind : Space) (members : WrittenMembers)

end

/-! ## Texts -/

def Glyph.text : Glyph → List Char
  | .char c .. => [c]
  | .letter c .. => ['\\', c]
  | .code a b c d .. => ['\\', 'u', a, b, c, d]
  | .pair a b c d e f g i .. => ['\\', 'u', a, b, c, d, '\\', 'u', e, f, g, i]

/-- The character that is meant. -/
def Glyph.says : Glyph → Char
  | .char c .. => c
  | .letter _ x _ => x
  | .code _ _ _ _ n .. => Char.ofNat n
  | .pair _ _ _ _ _ _ _ _ n m .. => Char.ofNat (0x10000 + (n - 0xD800) * 0x400 + (m - 0xDC00))

/-- The text between the quotes of a string. -/
def Quoted.body (q : Quoted) : List Char := q.flatMap Glyph.text

/-- What a string says. -/
def Quoted.says (q : Quoted) : List Char := q.map Glyph.says

def Quoted.text (q : Quoted) : List Char := '"' :: (q.body ++ ['"'])

/-- The text of a name from its quote up to the colon. -/
def Label.key (l : Label) : List Char := l.name.text ++ l.gap.1

/-- The text of a name with its colon. -/
def Label.text (l : Label) : List Char := l.lead.1 ++ (l.key ++ [':'])

mutual

def Written.text : Written → List Char
  | .literal w => w.chars
  | .string q => q.text
  | .emptyArray space => '[' :: (space.1 ++ [']'])
  | .array items => '[' :: items.text
  | .emptyObject space => '\x7b' :: (space.1 ++ ['\x7d'])
  | .object members => '\x7b' :: members.text

def WrittenItems.text : WrittenItems → List Char
  | .last lead v behind => lead.1 ++ (v.text ++ (behind.1 ++ [']']))
  | .more lead v behind items => lead.1 ++ (v.text ++ (behind.1 ++ ',' :: items.text))

def WrittenMembers.text : WrittenMembers → List Char
  | .last label lead v behind => label.text ++ (lead.1 ++ (v.text ++ (behind.1 ++ ['\x7d'])))
  | .more label lead v behind members =>
      label.text ++ (lead.1 ++ (v.text ++ (behind.1 ++ ',' :: members.text)))

end

mutual

/-- How many arrays and objects are nested in a value, the value itself included. -/
def Written.levels : Written → Nat
  | .literal _ | .string _ => 0
  | .emptyArray _ | .emptyObject _ => 1
  | .array items => items.levels + 1
  | .object members => members.levels + 1

/-- How many arrays and objects are nested in the deepest of some items. -/
def WrittenItems.levels : WrittenItems → Nat
  | .last _ v _ => v.levels
  | .more _ v _ items => max v.levels items.levels

/-- How many arrays and objects are nested in the deepest value of some members. -/
def WrittenMembers.levels : WrittenMembers → Nat
  | .last _ _ v _ => v.levels
  | .more _ _ v _ members => max v.levels members.levels

end

def WrittenMembers.names : WrittenMembers → List String
  | .last label _ _ _ => [String.ofList label.name.says]
  | .more label _ _ _ members => String.ofList label.name.says :: members.names

/-! ## What is said -/

/-- Whether a word or a number stands for a value. -/
def Literal.Says (w : Literal) (v : Json) : Prop :=
  (w.chars, v) ∈ words ∨ ∃ n x, Spelled n w.chars ∧ n.number? = some x ∧ v = .number x

mutual

/-- Whether a value is the one that is written. Of members of the same name the last one counts. -/
def Written.Says : Written → Json → Prop
  | .literal w, v => w.Says v
  | .string q, v => v = .string (String.ofList q.says)
  | .emptyArray _, v => v = .array []
  | .array items, v => ∃ vs, items.Says vs ∧ v = .array vs
  | .emptyObject _, v => v = .object []
  | .object members, v => ∃ es, members.Says es ∧ v = .object (Members.ofEntries es)

def WrittenItems.Says : WrittenItems → List Json → Prop
  | .last _ w _, vs => ∃ v, w.Says v ∧ vs = [v]
  | .more _ w _ items, vs => ∃ v rest, w.Says v ∧ items.Says rest ∧ vs = v :: rest

/-- Whether names with values are the members that are written, each as often as it is. -/
def WrittenMembers.Says : WrittenMembers → List (String × Json) → Prop
  | .last label _ w _, es => ∃ v, w.Says v ∧ es = [(String.ofList label.name.says, v)]
  | .more label _ w _ members, es =>
      ∃ v rest, w.Says v ∧ members.Says rest ∧ es = (String.ofList label.name.says, v) :: rest

end

theorem names_of_says_members : ∀ {members : WrittenMembers} {es : List (String × Json)}, members.Says es →
    members.names = Members.keys es
  | .last .., _, ⟨_, _, h⟩ => by
      rw [h]
      rfl
  | .more .., _, ⟨_, _, _, hrest, h⟩ => by
      rw [h, Members.keys_cons, ← names_of_says_members hrest]
      rfl

/-! ## Pieces -/

/-- A part of a text that can be looked at alone. -/
inductive Piece where
  /-- A word or a number. -/
  | literal (w : Literal)
  /-- A string, as a value or as a name. -/
  | string (q : Quoted)
  /-- A name up to its colon. -/
  | key (l : Label)
  /-- The names of an object. -/
  | names (ns : List String)

mutual

def Written.pieces : Written → List Piece
  | .literal w => [.literal w]
  | .string q => [.string q]
  | .emptyArray _ | .emptyObject _ => []
  | .array items => items.pieces
  | .object members => .names members.names :: members.pieces

def WrittenItems.pieces : WrittenItems → List Piece
  | .last _ v _ => v.pieces
  | .more _ v _ items => v.pieces ++ items.pieces

def WrittenMembers.pieces : WrittenMembers → List Piece
  | .last label _ v _ => .string label.name :: .key label :: v.pieces
  | .more label _ v _ members => .string label.name :: .key label :: (v.pieces ++ members.pieces)

end

/-! ## Every text that is read is written so -/

variable {cs rest : List Char} {depth : Nat} {v : Json}

theorem Literal.bare (w : Literal) : Bare w.chars := by
  rcases w.isLiteral with ⟨v, h⟩ | ⟨n, h⟩
  · exact bare_of_mem_words h
  · exact bare_of_spelled h

@[simp] theorem Quoted.body_cons (g : Glyph) (q : Quoted) : Quoted.body (g :: q) = g.text ++ q.body := rfl

@[simp] theorem Quoted.says_cons (g : Glyph) (q : Quoted) : Quoted.says (g :: q) = g.says :: q.says := rfl

theorem exists_quoted {s : List Char} (h : Body cs s rest) :
    ∃ q : Quoted, cs = q.body ++ '"' :: rest ∧ q.says = s := by
  induction h with
  | close => exact ⟨[], rfl, rfl⟩
  | char hl hq hb h ih =>
      obtain ⟨q, rfl, rfl⟩ := ih
      exact ⟨.char _ hl hq hb :: q, rfl, rfl⟩
  | letter hx h ih =>
      obtain ⟨q, rfl, rfl⟩ := ih
      exact ⟨.letter _ _ hx :: q, rfl, rfl⟩
  | code hn hs h ih =>
      obtain ⟨q, rfl, rfl⟩ := ih
      exact ⟨.code _ _ _ _ _ hn hs :: q, rfl, rfl⟩
  | pair hn hm hl hu h ih =>
      obtain ⟨q, rfl, rfl⟩ := ih
      exact ⟨.pair _ _ _ _ _ _ _ _ _ _ hn hm hl hu :: q, rfl, rfl⟩

theorem exists_space_of_skipSpace {more : List Char} (h : skipSpace cs = more) :
    ∃ space : Space, cs = space.1 ++ more := by
  obtain ⟨w, hw, he⟩ := exists_append_skipSpace cs
  exact ⟨⟨w, hw⟩, by rw [← h, ← he]⟩

/-- Whether what is read as a value was written as one that does not nest too deep. -/
def Writes (depth : Nat) : Prop :=
  ∀ cs v rest, value depth cs = some (v, rest) →
    ∃ (lead : Space) (w : Written), cs = lead.1 ++ (w.text ++ rest) ∧ w.levels ≤ depth ∧ w.Says v

theorem exists_items_of_listed {vs : List Json} (ho : Writes depth)
    (h : Listed (Item (value depth)) ']' cs vs rest) :
    ∃ items : WrittenItems, cs = items.text ++ rest ∧ items.levels ≤ depth ∧ items.Says vs := by
  induction h with
  | last hv hs =>
      obtain ⟨lead, w, rfl, hw, hsays⟩ := ho _ _ _ hv
      obtain ⟨behind, rfl⟩ := exists_space_of_skipSpace hs
      exact ⟨.last lead w behind, by simp [WrittenItems.text], hw, _, hsays, rfl⟩
  | more hv hs _ ih =>
      obtain ⟨lead, w, rfl, hw, hsays⟩ := ho _ _ _ hv
      obtain ⟨behind, rfl⟩ := exists_space_of_skipSpace hs
      obtain ⟨items, rfl, hitems, hrest⟩ := ih
      exact ⟨.more lead w behind items, by simp [WrittenItems.text], Nat.max_le.mpr ⟨hw, hitems⟩, _, _, hsays,
        hrest, rfl⟩

theorem exists_members_of_listed {ms : List (String × Json)} (ho : Writes depth)
    (h : Listed (Member (value depth)) '\x7d' cs ms rest) :
    ∃ members : WrittenMembers, cs = members.text ++ rest ∧ members.levels ≤ depth ∧ members.Says ms := by
  have hmember : ∀ {cs k v rest}, Member (value depth) cs (k, v) rest →
      ∃ (label : Label) (lead : Space) (w : Written), cs = label.text ++ (lead.1 ++ (w.text ++ rest))
        ∧ w.levels ≤ depth ∧ w.Says v ∧ String.ofList label.name.says = k := by
    rintro cs k v rest ⟨hq, hk, hc, hv⟩
    obtain ⟨before, rfl⟩ := exists_space_of_skipSpace hq
    obtain ⟨name, rfl, rfl⟩ := exists_quoted hk
    obtain ⟨gap, rfl⟩ := exists_space_of_skipSpace hc
    obtain ⟨lead, w, rfl, hw, hsays⟩ := ho _ _ _ hv
    refine ⟨⟨before, name, gap⟩, lead, w, ?_, hw, hsays, rfl⟩
    simp [Label.text, Label.key, Quoted.text]
  induction h with
  | @last cs mid rest e he hs =>
      obtain ⟨k, v⟩ := e
      obtain ⟨label, lead, w, rfl, hw, hsays, rfl⟩ := hmember he
      obtain ⟨behind, rfl⟩ := exists_space_of_skipSpace hs
      exact ⟨.last label lead w behind, by simp [WrittenMembers.text], hw, v, hsays, rfl⟩
  | @more cs mid next rest e ms he hs _ ih =>
      obtain ⟨k, v⟩ := e
      obtain ⟨label, lead, w, rfl, hw, hsays, rfl⟩ := hmember he
      obtain ⟨behind, rfl⟩ := exists_space_of_skipSpace hs
      obtain ⟨members, rfl, hmembers, hrest⟩ := ih
      exact ⟨.more label lead w behind members, by simp [WrittenMembers.text], Nat.max_le.mpr ⟨hw, hmembers⟩, v, ms,
        hsays, hrest, rfl⟩

theorem exists_written_of_shape (ho : ∀ d, depth = d + 1 → Writes d) (h : Shape depth cs v rest) :
    ∃ w : Written, cs = w.text ++ rest ∧ w.levels ≤ depth ∧ w.Says v := by
  cases h with
  | string h =>
      obtain ⟨q, rfl, rfl⟩ := exists_quoted h
      exact ⟨.string q, by simp [Written.text, Quoted.text], Nat.zero_le depth, rfl⟩
  | word h => exact ⟨.literal ⟨_, .inl ⟨v, h⟩⟩, rfl, Nat.zero_le depth, .inl h⟩
  | number hn hx =>
      obtain ⟨w, rfl, hw⟩ := spelled_of_numerals? hn
      exact ⟨.literal ⟨w, .inr ⟨_, hw⟩⟩, rfl, Nat.zero_le depth, .inr ⟨_, _, hw, hx, rfl⟩⟩
  | emptyArray h =>
      obtain ⟨space, rfl⟩ := exists_space_of_skipSpace h
      exact ⟨.emptyArray space, by simp [Written.text], Nat.le_add_left 1 _, rfl⟩
  | array h =>
      obtain ⟨items, rfl, hl, hsays⟩ := exists_items_of_listed (ho _ rfl) h
      exact ⟨.array items, rfl, Nat.succ_le_succ hl, _, hsays, rfl⟩
  | emptyObject h =>
      obtain ⟨space, rfl⟩ := exists_space_of_skipSpace h
      exact ⟨.emptyObject space, by simp [Written.text], Nat.le_add_left 1 _, rfl⟩
  | object h =>
      obtain ⟨members, rfl, hl, hsays⟩ := exists_members_of_listed (ho _ rfl) h
      exact ⟨.object members, rfl, Nat.succ_le_succ hl, _, hsays, rfl⟩

theorem writes (depth : Nat) : Writes depth := by
  induction depth with
  | zero =>
      intro cs v rest h
      obtain ⟨w, hw, hl⟩ := exists_written_of_shape (fun d hd => by contradiction) (value_eq_some_iff.mp h)
      obtain ⟨lead, rfl⟩ := exists_space_of_skipSpace hw
      exact ⟨lead, w, rfl, hl⟩
  | succ depth ih =>
      intro cs v rest h
      obtain ⟨w, hw, hl⟩ := exists_written_of_shape (fun d hd => Nat.succ.inj hd ▸ ih) (value_eq_some_iff.mp h)
      obtain ⟨lead, rfl⟩ := exists_space_of_skipSpace hw
      exact ⟨lead, w, rfl, hl⟩

/-! ## Documents -/

/-- An object with members, with white space around it. -/
structure Document where
  lead : Space
  members : WrittenMembers
  trail : Space

/-- The text of an object with white space around it. -/
def Document.text (d : Document) : List Char := d.lead.1 ++ ('\x7b' :: (d.members.text ++ d.trail.1))

/-- **Every object with members is read from a text that is written as one**, and that says the members. -/
theorem exists_says_of_parse? {text : String} {ms : Members Json} (h : parse? text = some (.object ms))
    (hne : ms ≠ []) :
    ∃ (d : Document) (es : List (String × Json)), text.toList = d.text ∧ d.members.levels < maxDepth
      ∧ ms = Members.ofEntries es ∧ d.members.Says es := by
  obtain ⟨rest, hs, hr⟩ := parse?_eq_some_iff.mp h
  generalize hcs : skipSpace text.toList = cs at hs
  obtain ⟨lead, htext⟩ := exists_space_of_skipSpace hcs
  cases hs with
  | word hw => simp [words] at hw
  | emptyObject => exact absurd rfl hne
  | object hm =>
      obtain ⟨members, rfl, hl, hsays⟩ := exists_members_of_listed (writes _) hm
      exact ⟨⟨lead, members, ⟨rest, hr⟩⟩, _, by simp [htext, Document.text], Nat.lt_succ_of_le hl, rfl, hsays⟩

theorem exists_document_of_parse? {text : String} {ms : Members Json} (h : parse? text = some (.object ms))
    (hne : ms ≠ []) :
    ∃ (d : Document) (es : List (String × Json)), text.toList = d.text ∧ d.members.levels < maxDepth
      ∧ ms = Members.ofEntries es ∧ d.members.names = Members.keys es := by
  obtain ⟨d, es, htext, hl, hes, hsays⟩ := exists_says_of_parse? h hne
  exact ⟨d, es, htext, hl, hes, names_of_says_members hsays⟩

end Stencil.Json
