/-
# Sets and maps of characters as tables

A set is a list of ranges of code points.  A map is a list of runs: the members
of a run lie a fixed stride apart, and so do their images.  Both are written as
hexadecimal text, ranges as `41-5A` or `AA`, runs as `41-5A/1/61`.
-/

namespace ElementBuild
namespace Text

/-- The value of a hexadecimal digit. -/
def hexValue? (c : Char) : Option Nat :=
  if '0' ≤ c ∧ c ≤ '9' then some (c.toNat - '0'.toNat)
  else if 'a' ≤ c ∧ c ≤ 'f' then some (c.toNat - 'a'.toNat + 10)
  else if 'A' ≤ c ∧ c ≤ 'F' then some (c.toNat - 'A'.toNat + 10)
  else none

/-- The number that hexadecimal digits write; other characters count as
nothing. -/
def hexNumber (cs : List Char) : Nat :=
  cs.foldl (fun n c => match hexValue? c with | some d => 16 * n + d | none => n) 0

/-- The non-empty parts of a text between separators. -/
def splitWhere (isSeparator : Char → Bool) (cs : List Char) : List (List Char) :=
  let (last, parts) := cs.foldr (fun c (acc : List Char × List (List Char)) =>
    if isSeparator c then ([], if acc.1.isEmpty then acc.2 else acc.1 :: acc.2)
    else (c :: acc.1, acc.2)) ([], [])
  if last.isEmpty then parts else last :: parts

/-- A set of characters as ranges of code points, ends included. -/
structure CharSet where
  ranges : List (Nat × Nat)
  deriving DecidableEq, Repr

namespace CharSet

/-- A range `lo-hi`, or a single code point. -/
def rangeOfHex (cs : List Char) : Nat × Nat :=
  match splitWhere (· == '-') cs with
  | [a, b] => (hexNumber a, hexNumber b)
  | _ => (hexNumber cs, hexNumber cs)

/-- The set written as lines of hexadecimal ranges between blanks. -/
def ofHex (lines : List String) : CharSet :=
  ⟨lines.flatMap fun line => (splitWhere (· == ' ') line.toList).map rangeOfHex⟩

/-- Whether a code point lies in one of the ranges. -/
def hasCode (s : CharSet) (n : Nat) : Bool := s.ranges.any fun r => r.1 ≤ n && n ≤ r.2

/-- Membership. -/
def contains (s : CharSet) (c : Char) : Bool := s.hasCode c.toNat

end CharSet

/-- A run of characters a stride apart, and the image of the first. -/
structure CharRun where
  first : Nat
  last : Nat
  stride : Nat
  image : Nat
  deriving DecidableEq, Repr

/-- A map of characters; what no run holds is its own image. -/
structure CharMap where
  runs : List CharRun
  deriving DecidableEq, Repr

namespace CharMap

/-- A run `lo-hi/stride/image`. -/
def runOfHex (cs : List Char) : CharRun :=
  match splitWhere (· == '/') cs with
  | [range, stride, image] =>
    let (a, b) := CharSet.rangeOfHex range
    ⟨a, b, hexNumber stride, hexNumber image⟩
  | _ => ⟨1, 0, 1, 0⟩

/-- The map written as lines of hexadecimal runs between blanks. -/
def ofHex (lines : List String) : CharMap :=
  ⟨lines.flatMap fun line => (splitWhere (· == ' ') line.toList).map runOfHex⟩

/-- The image of a character. -/
def image (m : CharMap) (c : Char) : Char :=
  let n := c.toNat
  match m.runs.find? fun r => r.first ≤ n && n ≤ r.last && (n - r.first) % r.stride == 0 with
  | some r => Char.ofNat (r.image + (n - r.first))
  | none => c

/-- The characters other than the given one that it is the image of. -/
def origins (m : CharMap) (c : Char) : List Char :=
  let n := c.toNat
  m.runs.filterMap fun r =>
    if r.image ≤ n && n - r.image ≤ r.last - r.first && (n - r.image) % r.stride == 0 then
      some (Char.ofNat (r.first + (n - r.image)))
    else none

end CharMap

end Text
end ElementBuild
