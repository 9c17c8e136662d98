/-
# Matching

`find?` looks for the first place where a program matches, and there for the match
that its forks prefer.  Where the program has been at a place of the text without
success it has nothing to look for a second time, so the search remembers where it
has been and ends after as many steps as there are instructions and places.
-/
import ElementBuild.Pattern.Program
import ElementBuild.Pattern.Reader
import Std.Data.HashSet

namespace ElementBuild
namespace Pattern

/-- A place of a text. -/
structure Place where
  index : Nat
  before : Option Char
  rest : List Char
  deriving Repr

namespace Place

/-- The beginning of a text. -/
def ofText (cs : List Char) : Place := ⟨0, none, cs⟩

/-- The places of a text from one on. -/
def onwards (index : Nat) (before : Option Char) : List Char → List Place
  | [] => [⟨index, before, []⟩]
  | c :: cs => ⟨index, before, c :: cs⟩ :: onwards (index + 1) (some c) cs

end Place

/-- A way that the search has not gone yet, with the slots noted on it, the latest
first. -/
structure Thread where
  next : Nat
  place : Place
  slots : List (Nat × Nat)
  deriving Repr

namespace Program

/-- Where a thread goes on; a thread that ends in a match gives its slots. -/
def advance (p : Program) (t : Thread) : Except (List (Nat × Nat)) (List Thread) :=
  match p.code[t.next]? with
  | none => .ok []
  | some (.consume c) =>
    match t.place.rest with
    | [] => .ok []
    | x :: rest =>
      .ok (if c.contains x then [⟨t.next + 1, ⟨t.place.index + 1, some x, rest⟩, t.slots⟩] else [])
  | some (.look l) =>
    .ok (if l.holds t.place.before t.place.rest.head? then [{ t with next := t.next + 1 }] else [])
  | some (.fork first second) => .ok [{ t with next := first }, { t with next := second }]
  | some (.jump next) => .ok [{ t with next }]
  | some (.save slot) =>
    .ok [{ t with next := t.next + 1, slots := (slot, t.place.index) :: t.slots }]
  | some .accept => .error t.slots

/-- Follows threads in order of preference, and gives the slots of the first that
matches and all that has been seen. -/
def follow (p : Program) :
    Nat → List Thread → Std.HashSet (Nat × Nat) → Option (List (Nat × Nat)) × Std.HashSet (Nat × Nat)
  | 0, _, seen => (none, seen)
  | _, [], seen => (none, seen)
  | fuel + 1, t :: ts, seen =>
    if seen.contains (t.next, t.place.index) then p.follow fuel ts seen
    else
      match p.advance t with
      | .error slots => (some slots, seen)
      | .ok more => p.follow fuel (more ++ ts) (seen.insert (t.next, t.place.index))

/-- The slots of the match at the first of some places that has one. -/
def firstMatch (p : Program) (fuel : Nat) :
    List Place → Std.HashSet (Nat × Nat) → Option (List (Nat × Nat))
  | [], _ => none
  | place :: places, seen =>
    match p.follow fuel [⟨0, place, []⟩] seen with
    | (some slots, _) => some slots
    | (none, seen) => p.firstMatch fuel places seen

end Program

/-- A match in a text. -/
structure Match where
  text : List Char
  slots : List (Nat × Nat)
  deriving Repr

namespace Match

/-- The place noted in a slot. -/
def slot? (m : Match) (i : Nat) : Option Nat := (m.slots.find? (·.1 == i)).map (·.2)

/-- The text of a capture that took part; number 0 is the whole match. -/
def capture? (m : Match) (i : Nat) : Option (List Char) :=
  match m.slot? (2 * i), m.slot? (2 * i + 1) with
  | some start, some stop => some ((m.text.drop start).take (stop - start))
  | _, _ => none

/-- What stands before the match. -/
def before (m : Match) : List Char := m.text.take ((m.slot? 0).getD 0)

/-- What stands after the match. -/
def after (m : Match) : List Char := m.text.drop ((m.slot? 1).getD 0)

end Match

namespace Program

/-- The first match in a text. -/
def find? (p : Program) (text : List Char) : Option Match :=
  let fuel := 2 * p.code.size * (text.length + 1) + 2
  (p.firstMatch fuel (Place.onwards 0 none text) ∅).map fun slots => ⟨text, slots⟩

/-- Whether a text has a match. -/
def matchesIn (p : Program) (text : List Char) : Bool := (p.find? text).isSome

end Program

/-- The program that a text writes, unless it is malformed or too large. -/
def compile? (text : String) : Option Program :=
  (read? text).bind fun (n, captures, names) =>
    if n.weight ≤ Node.weightLimit then some (.ofNode n captures names) else none

end Pattern
end ElementBuild
