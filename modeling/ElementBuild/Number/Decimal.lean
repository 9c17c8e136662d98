/-
# Decimal text of doubles

`Decimal.read` takes digits, a point and an exponent to the nearest double, or to
infinity.  `shortest` is the decimal with the fewest digits that reads back as a
given double, of those the nearest to it: for each number of digits it tests the
two neighbours of the double on that decimal grid, and the first grid with a hit
wins.
-/
import ElementBuild.Number.Binary

namespace ElementBuild
namespace Number

/-- A decimal number `digits * 10 ^ exponent`. -/
structure Decimal where
  digits : Nat
  exponent : Int
  deriving DecidableEq, Repr

/-- A double that is not negative, or infinity. -/
inductive Magnitude where
  | finite (x : Binary)
  | infinite
  deriving DecidableEq, Repr

namespace Decimal

/-- The nearest double to a decimal number. -/
def toMagnitude (d : Decimal) : Magnitude :=
  let size := d.exponent + (toString d.digits).length
  if d.digits = 0 ∨ size < -400 then .finite ⟨0, 0⟩
  else if 400 < size then .infinite
  else
    let x := match d.exponent with
      | .ofNat e => Binary.ofRatio (d.digits * Nat.pow 10 e) 1
      | .negSucc e => Binary.ofRatio d.digits (Nat.pow 10 (e + 1))
    if 971 < x.exponent then .infinite else .finite x

/-- The number of digits before the point of a ratio of at least one tenth of a
power of ten: the least `p` with `a / b < 10 ^ p`. -/
def places (a b : Nat) : Int :=
  if b ≤ a then ((toString (a / b)).length : Int)
  else 1 - (leading 400 a b : Int)
where
  /-- The least power of ten that lifts a ratio to one. -/
  leading : Nat → Nat → Nat → Nat
    | 0, _, _ => 0
    | fuel + 1, a, b => if b ≤ a then 0 else leading fuel (10 * a) b + 1

/-- The decimal with the fewest digits that reads back as the double. -/
def shortest (x : Binary) : Decimal :=
  if x.mantissa = 0 then ⟨0, 0⟩
  else
    let scale (n : Nat) : Nat × Nat := Binary.ratio ⟨n, x.exponent - 2⟩
    let (a, b) := scale (4 * x.mantissa)
    let low := (scale (if x.mantissa = 0x10000000000000 ∧ x.exponent ≠ -1074 then 4 * x.mantissa - 1
      else 4 * x.mantissa - 2)).1
    let high := (scale (4 * x.mantissa + 2)).1
    let p := places a b
    let inside (n d : Nat) : Bool :=
      -- `low / b ≤ n / d ≤ high / b`, the ends only for an even mantissa
      if x.mantissa % 2 = 0 then low * d ≤ n * b && n * b ≤ high * d
      else low * d < n * b && n * b < high * d
    trimmed (go inside a b p 17 1)
where
  /-- A power of ten that came up as the upper neighbour has one digit too many. -/
  trimmed (d : Decimal) : Decimal :=
    if d.digits % 10 = 0 then ⟨d.digits / 10, d.exponent + 1⟩ else d
  go (inside : Nat → Nat → Bool) (a b : Nat) (p : Int) : Nat → Nat → Decimal
    | 0, _ => ⟨a / b, 0⟩
    | fuel + 1, k =>
      let e := p - (k : Int)
      let (up, down) := match e with
        | .ofNat e => (Nat.pow 10 e, 1)
        | .negSucc e => (1, Nat.pow 10 (e + 1))
      let c := (a * down) / (b * up)
      let hitLow := inside (c * up) down
      let hitHigh := inside ((c + 1) * up) down
      -- the distances to the two neighbours, as numerators over `b * down`
      let below := a * down - c * up * b
      let above := (c + 1) * up * b - a * down
      if hitLow && hitHigh then
        if below < above ∨ (below = above ∧ c % 2 = 0) then ⟨c, e⟩ else ⟨c + 1, e⟩
      else if hitLow then ⟨c, e⟩
      else if hitHigh then ⟨c + 1, e⟩
      else go inside a b p fuel (k + 1)

/-- A decimal number written with digits and a point alone. -/
def positional (d : Decimal) : String :=
  let digits := (toString d.digits).toList
  match d.exponent with
  | .ofNat e => String.ofList (digits ++ List.replicate e '0')
  | .negSucc e =>
    let after := e + 1
    let padded := List.replicate (after + 1 - digits.length) '0' ++ digits
    let whole := padded.take (padded.length - after)
    let fraction := padded.drop (padded.length - after)
    let fraction := (fraction.reverse.dropWhile (· == '0')).reverse
    if fraction.isEmpty then String.ofList whole
    else String.ofList (whole ++ '.' :: fraction)

end Decimal

/-- The digits of an unsigned decimal text: all digits as one number, and the
exponent that the point and a part after `e` give it. -/
def readDecimal (cs : List Char) : Decimal :=
  let (whole, rest) := cs.span Char.isDigit
  let (fraction, rest) := match rest with
    | '.' :: r => r.span Char.isDigit
    | r => ([], r)
  let number (ds : List Char) : Nat := ds.foldl (fun n c => 10 * n + (c.toNat - '0'.toNat)) 0
  let exponent : Int := match rest with
    | _ :: '-' :: ds => -(number ds : Int)
    | _ :: '+' :: ds => number ds
    | _ :: ds => number ds
    | [] => 0
  ⟨number (whole ++ fraction), exponent - fraction.length⟩

end Number
end ElementBuild
