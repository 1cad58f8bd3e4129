import Stencil.Proofs.Json.Written
import Stencil.Proofs.Members

/-!
# Names in the order of a JSON text

The names of an object that is read from a JSON text are those of the members that are written, in their order
(`Lists`). A name that is given twice stays where it first came, and names lead to the last member that is written.

Main statement: `exists_lists_of_parse?`.
-/

namespace Stencil.Json

variable {w : Written} {v : Json} {es : List (String × Json)} {name : String} {place : List String}

/-! ## Members that are written -/

def WrittenMembers.entries : WrittenMembers → List (String × Written)
  | .last label _ w _ => [(String.ofList label.name.says, w)]
  | .more label _ w _ members => (String.ofList label.name.says, w) :: members.entries

namespace Written

/-- The members of an object. -/
def entries : Written → List (String × Written)
  | .object members => members.entries
  | _ => []

/-- The names of an object, as often as they are written. -/
def names? : Written → Option (List String)
  | .emptyObject _ => some []
  | .object members => some members.names
  | _ => none

/-- The last member of a name. -/
def member? (w : Written) (name : String) : Option Written :=
  (w.entries.reverse.find? fun e => e.1 = name).map Prod.snd

/-- What names lead to. -/
def walk? : Written → List String → Option Written
  | w, [] => some w
  | w, name :: names => (w.member? name).bind fun part => part.walk? names

end Written

theorem forall₂_of_says_members : ∀ {members : WrittenMembers} {es : List (String × Json)}, members.Says es →
    List.Forall₂ (fun a b => a.1 = b.1 ∧ a.2.Says b.2) members.entries es
  | .last .., _, ⟨_, hv, h⟩ => h ▸ .cons ⟨rfl, hv⟩ .nil
  | .more .., _, ⟨_, _, hv, hrest, h⟩ => h ▸ .cons ⟨rfl, hv⟩ (forall₂_of_says_members hrest)

/-! ## Objects -/

/-- No word and no number stands for an object. -/
theorem Literal.not_says_object (l : Literal) (ms : Members Json) : ¬ l.Says (.object ms) := by
  rintro (h | ⟨n, x, -, -, h⟩)
  · simp [words] at h
  · contradiction

/-- What says an object is written as one. -/
theorem exists_of_says_object {ms : Members Json} (h : w.Says (.object ms)) :
    ∃ es, ms = Members.ofEntries es ∧ w.names? = some (Members.keys es)
      ∧ List.Forall₂ (fun a b => a.1 = b.1 ∧ a.2.Says b.2) w.entries es := by
  cases w with
  | literal l => exact absurd h (l.not_says_object ms)
  | string q => contradiction
  | emptyArray space => contradiction
  | array items =>
      obtain ⟨vs, -, h⟩ := h
      contradiction
  | emptyObject space =>
      obtain rfl := Json.object.inj h
      exact ⟨[], rfl, rfl, .nil⟩
  | object members =>
      obtain ⟨es, hsays, h⟩ := h
      obtain rfl := Json.object.inj h
      exact ⟨es, rfl, congrArg some (names_of_says_members hsays), forall₂_of_says_members hsays⟩

/-- A name leads to the last member that is written. -/
theorem exists_member?_of_says {x : Json} (h : w.Says v) (hx : v.member? name = some x) :
    ∃ part, w.member? name = some part ∧ part.Says x := by
  cases v with
  | object ms =>
      obtain ⟨es, rfl, -, hall⟩ := exists_of_says_object h
      rw [Json.member?, Members.get?_ofEntries_eq_find?] at hx
      obtain ⟨e, he, rfl⟩ := Option.map_eq_some_iff.mp hx
      obtain ⟨part, hpart, -, hsays⟩ := exists_find?_of_forall₂ (p := fun e => e.1 = name)
        (List.forall₂_reverse_iff.mpr hall) (fun a b h => by simp [h.1]) he
      exact ⟨part.2, by rw [Written.member?, hpart, Option.map_some], hsays⟩
  | null | bool | number | string | array => contradiction

/-- **Names lead to what says the value that they lead to.** -/
theorem exists_walk?_of_says {x : Json} (h : w.Says v) (hx : v.walk? place = some x) :
    ∃ part, w.walk? place = some part ∧ part.Says x := by
  induction place generalizing w v with
  | nil =>
      obtain rfl := Option.some.inj hx
      exact ⟨w, rfl, h⟩
  | cons name names ih =>
      obtain ⟨y, hy, hx⟩ := Option.bind_eq_some_iff.mp hx
      obtain ⟨next, hnext, hsays⟩ := exists_member?_of_says h hy
      obtain ⟨part, hpart, hsays⟩ := ih hsays hx
      exact ⟨part, by rw [Written.walk?, hnext, Option.bind_some, hpart], hsays⟩

/-! ## Texts -/

/-- Whether a text lists names, in this order: it is written as an object, and they are the names of the object that
a place in it leads to. -/
def Lists (text : String) (place names : List String) : Prop :=
  ∃ (d : Document) (part : Written), text.toList = d.text ∧ (Written.object d.members).walk? place = some part
    ∧ part.names? = some names

/-- **The names of an object that is read are listed in the text**, and each stands where it first came. -/
theorem exists_lists_of_parse? {text : String} {members ms : Members Json}
    (h : parse? text = some (.object members)) (hne : members ≠ [])
    (hms : (Json.object members).walk? place = some (.object ms)) :
    ∃ names, Lists text place names ∧ Members.keys ms = names.eraseDups := by
  obtain ⟨d, es, htext, -, rfl, hsays⟩ := exists_says_of_parse? h hne
  obtain ⟨part, hpart, hsaid⟩ := exists_walk?_of_says (w := .object d.members) ⟨es, hsays, rfl⟩ hms
  obtain ⟨fs, rfl, hnames, -⟩ := exists_of_says_object hsaid
  exact ⟨Members.keys fs, ⟨d, part, htext, hpart, hnames⟩, Members.keys_ofEntries fs⟩

end Stencil.Json
