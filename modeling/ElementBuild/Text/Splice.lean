/-
# Splicing by the offsets of the text before all edits

Edits are written down with offsets into a text that nobody has edited yet.  A
`Splicer` knows how much longer the text has become by the edits made so far, and
shifts the offsets of the next one by that much.  For edits in ascending order this
replaces each range as if all were replaced at once.

Offsets and shifts are numbers of 64 bits: `signed` reads an offset as a signed
number, and a sum wraps.

| refused, in this order | when |
| --- | --- |
| `invertedRange` | the end lies before the start |
| `outOfBounds` | a shifted end does not lie in the text |
| `notCharBoundary` | a shifted end lies within a character |
-/
import ElementBuild.Text.Offset

namespace ElementBuild
namespace Text

/-- One replacement: the bytes from `start` to `stop` give way to a text. -/
structure Edit where
  replacement : List Char
  start : Nat
  stop : Nat
  deriving DecidableEq, Repr

/-- Why an edit is refused. -/
inductive SpliceError where
  | invertedRange (start stop : Nat)
  | outOfBounds (start stop : Nat) (delta : Int) (length : Nat)
  | notCharBoundary (start stop : Nat)
  deriving DecidableEq, Repr

namespace SpliceError

/-- What is wrong with the edit. -/
def message : SpliceError → String
  | invertedRange start stop =>
    "end argument must be greater than or equal to start. Actual: start " ++ toString start ++
      ", end " ++ toString stop
  | outOfBounds start stop delta length =>
    "range " ++ toString start ++ ".." ++ toString stop ++ " (shifted by " ++ toString delta ++
      ") is out of bounds for a text of length " ++ toString length
  | notCharBoundary start stop =>
    "range " ++ toString start ++ ".." ++ toString stop ++
      " does not fall on character boundaries"

end SpliceError

/-- The number of words of 64 bits. -/
def wordCount : Nat := 0x10000000000000000

/-- The signed number of 64 bits that a number is taken for. -/
def signed (n : Int) : Int := n.bmod wordCount

/-- How much longer a text has become. -/
structure Splicer where
  delta : Int := 0
  deriving DecidableEq, Repr

namespace Splicer

/-- The place in the edited text of an offset into the text before all edits, if
it lies within a text of the given length. -/
def shift? (s : Splicer) (length offset : Nat) : Option Nat :=
  let shifted := signed (signed offset + s.delta)
  if 0 ≤ shifted ∧ shifted ≤ length then some shifted.toNat else none

/-- The splicer after an edit. -/
def advance (s : Splicer) (e : Edit) : Splicer :=
  ⟨signed (s.delta + signed (byteLength e.replacement - signed (e.stop - e.start)))⟩

/-- Makes an edit in a text that earlier edits may have changed. -/
def splice (s : Splicer) (text : List Char) (e : Edit) : Except SpliceError (List Char × Splicer) :=
  if e.stop < e.start then .error (.invertedRange e.start e.stop)
  else
    let length := byteLength text
    match s.shift? length e.start, s.shift? length e.stop with
    | some start, some stop =>
      match splitAt? text start, splitAt? text stop with
      | some (before, _), some (_, after) => .ok (before ++ e.replacement ++ after, s.advance e)
      | _, _ => .error (.notCharBoundary e.start e.stop)
    | _, _ => .error (.outOfBounds e.start e.stop s.delta length)

end Splicer

/-- A text in the course of its edits. -/
structure Draft where
  text : List Char
  splicer : Splicer := {}
  deriving Repr

namespace Draft

/-- A text without edits. -/
def ofString (text : String) : Draft := { text := text.toList }

/-- Makes an edit. -/
def edit (d : Draft) (e : Edit) : Except SpliceError Draft :=
  (d.splicer.splice d.text e).map fun (text, splicer) => ⟨text, splicer⟩

/-- The text as it stands. -/
def toString (d : Draft) : String := String.ofList d.text

end Draft

end Text
end ElementBuild
