/-
# Sorting by a number

What is found in a text is listed by its offset.  What has the same offset keeps its
order.
-/

namespace ElementBuild

/-- Puts something before the first thing that does not come before it. -/
def insertBy {α : Type} (key : α → Nat) (x : α) : List α → List α
  | [] => [x]
  | y :: ys => if key x ≤ key y then x :: y :: ys else y :: insertBy key x ys

/-- Things in the order of their numbers. -/
def sortBy {α : Type} (key : α → Nat) (xs : List α) : List α := xs.foldr (insertBy key) []

end ElementBuild
