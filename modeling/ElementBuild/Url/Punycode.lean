/-
# Punycode

International names are written in ASCII as labels that open with `xn--`: the ASCII
characters of the name first, and after the last hyphen where the others go.  These
are numbers of variable length in base 36; each says how many steps there are from
the last insertion to the next, through all places of the name so far and, once
these are used up, on to the next character.
-/
import ElementBuild.Text.CharSet

namespace ElementBuild
namespace Url
namespace Punycode

/-- The value of a digit. -/
def digit? (c : Char) : Option Nat :=
  if 'a' ≤ c ∧ c ≤ 'z' then some (c.toNat - 'a'.toNat)
  else if '0' ≤ c ∧ c ≤ '9' then some (c.toNat - '0'.toNat + 26)
  else none

/-- Scales a distance down, counting the steps of 36 that this takes. -/
def scaled : Nat → Nat → Nat → Nat
  | 0, steps, _ => steps
  | fuel + 1, steps, delta =>
    if 455 < delta then scaled fuel (steps + 36) (delta / 35)
    else steps + 36 * delta / (delta + 38)

/-- The bias after a distance, given the length of the name with the new
character. -/
def adapted (delta length : Nat) (isFirst : Bool) : Nat :=
  let delta := if isFirst then delta / 700 else delta / 2
  let delta := delta + delta / length
  scaled delta 0 delta

/-- The digit below which a number ends. -/
def threshold (place bias : Nat) : Nat := min 26 (max 1 (place - bias))

/-- Where the decoder stands. -/
structure State where
  code : Nat := 128
  /-- The place of the next insertion, as far as it is known. -/
  index : Nat := 0
  /-- The index at the last insertion. -/
  start : Nat := 0
  weight : Nat := 1
  place : Nat := 36
  bias : Nat := 72
  name : List Char
  deriving Repr

/-- A number is complete: its character is inserted. -/
def State.insert? (s : State) : Option State :=
  let length := s.name.length + 1
  let code := s.code + s.index / length
  let index := s.index % length
  if code < 0xd800 ∨ (0xdfff < code ∧ code < 0x110000) then
    some {
      code
      index := index + 1
      start := index + 1
      bias := adapted (s.index - s.start) length (s.start == 0)
      name := s.name.take index ++ Char.ofNat code :: s.name.drop index }
  else none

/-- Reads one digit. -/
def State.read? (s : State) (c : Char) : Option State :=
  (digit? c).bind fun d =>
    let t := threshold s.place s.bias
    let s := { s with index := s.index + d * s.weight }
    if d < t then s.insert?
    else some { s with weight := s.weight * (36 - t), place := s.place + 36 }

/-- The name that a label without its `xn--` writes. -/
def decode? (cs : List Char) : Option (List Char) :=
  let (digits, basic) := match cs.reverse.span (· ≠ '-') with
    | (digits, _ :: basic) => (digits.reverse, basic.reverse)
    | (digits, []) => (digits.reverse, [])
  (digits.foldlM State.read? { name := basic }).bind fun s =>
    if s.weight = 1 then some s.name else none

end Punycode
end Url
end ElementBuild
