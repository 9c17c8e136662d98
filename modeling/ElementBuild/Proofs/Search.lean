/-
# Searching with a list

The search for a match remembers in a table where it has been.  A list that has the same places
does as well (`find?_eq_search?`), and with a list the search is a plain recursion that can be
followed step by step.
-/
import ElementBuild.Pattern.Template

namespace ElementBuild
namespace Pattern
namespace Program

/-- Follows threads as `follow` does; the places that it has seen stand in a list. -/
def followList (p : Program) :
    Nat → List Thread → List (Nat × Nat) → Option (List (Nat × Nat)) × List (Nat × Nat)
  | 0, _, seen => (none, seen)
  | _, [], seen => (none, seen)
  | fuel + 1, t :: ts, seen =>
    if seen.contains (t.next, t.place.index) then p.followList fuel ts seen
    else
      match p.advance t with
      | .error slots => (some slots, seen)
      | .ok more => p.followList fuel (more ++ ts) ((t.next, t.place.index) :: seen)

/-- The slots of the first match, found with a list. -/
def firstMatchList (p : Program) (fuel : Nat) :
    List Place → List (Nat × Nat) → Option (List (Nat × Nat))
  | [], _ => none
  | place :: places, seen =>
    match p.followList fuel [⟨0, place, []⟩] seen with
    | (some slots, _) => some slots
    | (none, seen) => p.firstMatchList fuel places seen

/-- The first match in a text, found with a list. -/
def search? (p : Program) (text : List Char) : Option Match :=
  let fuel := 2 * p.code.size * (text.length + 1) + 2
  (p.firstMatchList fuel (Place.onwards 0 none text) []).map fun slots => ⟨text, slots⟩

/-- A list has the places of a table. -/
def Lists (seen : List (Nat × Nat)) (table : Std.HashSet (Nat × Nat)) : Prop :=
  ∀ x, seen.contains x = table.contains x

variable {p : Program} {seen : List (Nat × Nat)} {table : Std.HashSet (Nat × Nat)}

theorem Lists.insert (h : Lists seen table) (x : Nat × Nat) :
    Lists (x :: seen) (table.insert x) := by
  intro y
  rw [List.contains_cons, Std.HashSet.contains_insert, h y, BEq.comm]

theorem lists_followList (fuel : Nat) (ts : List Thread) (h : Lists seen table) :
    (p.followList fuel ts seen).1 = (p.follow fuel ts table).1 ∧
      Lists (p.followList fuel ts seen).2 (p.follow fuel ts table).2 := by
  induction fuel generalizing ts seen table with
  | zero => exact ⟨rfl, h⟩
  | succ fuel ih =>
    cases ts with
    | nil => exact ⟨rfl, h⟩
    | cons t ts =>
      rw [followList, follow, h]
      split
      · exact ih ts h
      · cases p.advance t with
        | error slots => exact ⟨rfl, h⟩
        | ok more => exact ih (more ++ ts) (h.insert _)

theorem firstMatchList_eq (fuel : Nat) (places : List Place) (h : Lists seen table) :
    p.firstMatchList fuel places seen = p.firstMatch fuel places table := by
  induction places generalizing seen table with
  | nil => rfl
  | cons place places ih =>
    obtain ⟨hslots, hseen⟩ := lists_followList (p := p) fuel [⟨0, place, []⟩] h
    rw [firstMatchList, firstMatch]
    rcases hfound : p.followList fuel [⟨0, place, []⟩] seen with ⟨found, seen'⟩
    rcases hfound' : p.follow fuel [⟨0, place, []⟩] table with ⟨found', table'⟩
    rw [hfound, hfound'] at hslots hseen
    obtain rfl : found = found' := hslots
    cases found with
    | some slots => rfl
    | none => exact ih hseen

/-- **The search finds the same with a list.** -/
theorem find?_eq_search? (p : Program) (text : List Char) : p.find? text = p.search? text := by
  have hnone : Lists [] ∅ := fun x => by rw [List.contains_nil, Std.HashSet.contains_empty]
  rw [find?, search?, firstMatchList_eq _ _ hnone]

/-- The match that is found with a list is the one that is replaced. -/
theorem replace_of_search? {text : List Char} {m : Match} (template : List Char)
    (h : p.search? text = some m) :
    p.matchesIn text = true ∧ p.replace text template =
      m.before ++ Template.expandFrom (p.textOf m) 0 template ++ m.after := by
  rw [← find?_eq_search?] at h
  exact ⟨by rw [matchesIn, h]; rfl, by rw [replace, h]⟩

end Program
end Pattern
end ElementBuild
