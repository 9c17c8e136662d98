/-
# Binary floating point in exact arithmetic

A finite double is a mantissa times a power of two.  `Binary.ofRatio` is the
double nearest to a ratio of two natural numbers, a tie going to the even
mantissa; sums and quotients of doubles are the nearest doubles to the exact
results.  `Binary.fixed` writes the exact value with a fixed number of places, a
tie going to the even digit.
-/

namespace ElementBuild
namespace Number

/-- The nearest natural number to a quotient, a tie going to the even one. -/
def roundDiv (n d : Nat) : Nat :=
  let q := n / d
  let r := n % d
  if 2 * r < d then q
  else if d < 2 * r then q + 1
  else if q % 2 = 0 then q else q + 1

/-- A finite non-negative double: `mantissa * 2 ^ exponent`. -/
structure Binary where
  mantissa : Nat
  exponent : Int
  deriving DecidableEq, Repr

namespace Binary

/-- The number as a ratio. -/
def ratio (x : Binary) : Nat × Nat :=
  match x.exponent with
  | .ofNat e => (x.mantissa * Nat.pow 2 e, 1)
  | .negSucc e => (x.mantissa, Nat.pow 2 (e + 1))

/-- The ratio scaled by a power of two and rounded. -/
def roundScaled (n d : Nat) : Int → Nat
  | .ofNat e => roundDiv n (d * Nat.pow 2 e)
  | .negSucc e => roundDiv (n * Nat.pow 2 (e + 1)) d

/-- Whether a ratio is at least a power of two. -/
def reaches (n d : Nat) : Int → Bool
  | .ofNat e => decide (d * Nat.pow 2 e ≤ n)
  | .negSucc e => decide (d ≤ n * Nat.pow 2 (e + 1))

/-- The exponent of the largest power of two that is not above a ratio. -/
def magnitude (n d : Nat) : Int :=
  let upper : Int := (Nat.log2 n : Int) - (Nat.log2 d : Int)
  if reaches n d upper then upper else upper - 1

/-- The nearest double with 53 bits, not below the least exponent. -/
def ofRatio (n d : Nat) : Binary :=
  if n = 0 then ⟨0, 0⟩
  else
    let exponent := max (magnitude n d - 52) (-1074)
    let mantissa := roundScaled n d exponent
    if mantissa = 0x20000000000000 then ⟨0x10000000000000, exponent + 1⟩ else ⟨mantissa, exponent⟩

/-- The nearest double to a natural number. -/
def ofNat (n : Nat) : Binary := ofRatio n 1

/-- The nearest double to a sum. -/
def add (x y : Binary) : Binary :=
  let (a, b) := x.ratio
  let (c, d) := y.ratio
  ofRatio (a * d + c * b) (b * d)

/-- The nearest double to a difference that is not negative. -/
def sub (x y : Binary) : Binary :=
  let (a, b) := x.ratio
  let (c, d) := y.ratio
  ofRatio (a * d - c * b) (b * d)

/-- The nearest double to a product. -/
def mul (x y : Binary) : Binary :=
  let (a, b) := x.ratio
  let (c, d) := y.ratio
  ofRatio (a * c) (b * d)

/-- The nearest double to a quotient by a number that is not zero. -/
def div (x y : Binary) : Binary :=
  let (a, b) := x.ratio
  let (c, d) := y.ratio
  ofRatio (a * d) (b * c)

/-- The largest natural number that is not above. -/
def floor (x : Binary) : Nat :=
  let (a, b) := x.ratio
  a / b

/-- Whether a double is at least another. -/
def atLeast (x y : Binary) : Bool :=
  let (a, b) := x.ratio
  let (c, d) := y.ratio
  c * b ≤ a * d

/-- Decimal text with a fixed number of places, rounded from the exact value. -/
def fixed (places : Nat) (x : Binary) : String :=
  let (a, b) := x.ratio
  let scaled := roundDiv (a * Nat.pow 10 places) b
  if places = 0 then toString scaled
  else
    let fraction := toString (scaled % Nat.pow 10 places)
    toString (scaled / Nat.pow 10 places) ++ "." ++
      String.ofList (List.replicate (places - fraction.length) '0') ++ fraction

end Binary
end Number
end ElementBuild
