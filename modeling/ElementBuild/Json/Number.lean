/-
# Numbers in JSON text

A whole number that fits 64 bits is read as it is.  Any other number is a double:
its first digits, as many as fit 64 bits, are taken for a whole number, the power
of ten that is left over is multiplied or divided by in steps of at most 308, and
each step is rounded.  A number beyond the largest double is refused.

A double is written with the fewest digits that read back; it has a point or an
exponent, and the exponent appears where the point would stand more than sixteen
places to the right or five to the left.
-/
import ElementBuild.Json.Value

namespace ElementBuild
namespace JsonNumber

open Number (Binary Decimal)

/-- The largest number of 64 bits. -/
def maxWord : Nat := 0xffffffffffffffff

/-- The value of a digit. -/
def digit (c : Char) : Nat := c.toNat - '0'.toNat

/-- The digits at the beginning that fit 64 bits, as a number, and the rest. -/
def takeWord : Nat → List Char → Nat × List Char
  | n, [] => (n, [])
  | n, c :: cs =>
    if maxWord < 10 * n + digit c then (n, c :: cs) else takeWord (10 * n + digit c) cs

/-- Whether a double is too large. -/
def tooLarge (x : Binary) : Bool := 971 < x.exponent

/-- A double times a power of ten; the number of steps is bounded by the exponent
itself. -/
def scale? (fuel : Nat) (x : Binary) (exponent : Int) : Option Binary :=
  match fuel with
  | 0 => none
  | fuel + 1 =>
    match exponent with
    | .ofNat e =>
      if e ≤ 308 then
        let y := x.mul (.ofNat (Nat.pow 10 e))
        if tooLarge y then none else some y
      else if x.mantissa = 0 then some x
      else none
    | .negSucc e =>
      if e + 1 ≤ 308 then some (x.div (.ofNat (Nat.pow 10 (e + 1))))
      else if x.mantissa = 0 then some x
      else scale? fuel (x.div (.ofNat (Nat.pow 10 308))) (exponent + 308)

/-- The double that digits and an exponent write. -/
def double? (isNegative : Bool) (digits : Nat) (exponent : Int) : Option JsonNumber :=
  (scale? (exponent.natAbs + 1) (.ofNat digits) exponent).map (double isNegative ·)

/-- The digits of an exponent, and what follows. -/
def exponentDigits? (cs : List Char) : Option (Bool × List Char × List Char) :=
  let (isNegative, cs) := match cs with
    | '-' :: cs => (true, cs)
    | '+' :: cs => (false, cs)
    | cs => (false, cs)
  let (digits, rest) := cs.span Char.isDigit
  if digits.isEmpty then none else some (isNegative, digits, rest)

/-- The end of a double, after its digits: an exponent, or nothing. -/
def finish? (isNegative : Bool) (digits : Nat) (exponent : Int) (cs : List Char) :
    Option (JsonNumber × List Char) :=
  match cs with
  | c :: rest =>
    if c = 'e' ∨ c = 'E' then
      (exponentDigits? rest).bind fun (down, ds, rest) =>
        let n := ds.foldl (fun n c => 10 * n + digit c) 0
        if 0x80000000 ≤ n then
          -- only zero, or a number that rounds to it, has room for such an exponent
          if digits ≠ 0 ∧ ¬ down then none else some (double isNegative ⟨0, 0⟩, rest)
        else
          (double? isNegative digits (if down then exponent - n else exponent + n)).map (·, rest)
    else (double? isNegative digits exponent).map (·, cs)
  | [] => (double? isNegative digits exponent).map (·, cs)

/-- The number that opens a text, after its sign. -/
def unsigned? (isNegative : Bool) (cs : List Char) : Option (JsonNumber × List Char) :=
  let (whole, rest) := cs.span Char.isDigit
  if whole.isEmpty || (whole.head? == some '0' && whole.length != 1) then none
  else
    let (n, left) := takeWord 0 whole
    match rest with
    | '.' :: rest =>
      let (fraction, rest) := rest.span Char.isDigit
      if fraction.isEmpty then none
      else if left.isEmpty then
        let (n', cut) := takeWord n fraction
        finish? isNegative n' (-(fraction.length - cut.length : Nat)) rest
      else
        -- the fraction is read on from the digits that were left
        let (n', cut) := takeWord n fraction
        finish? isNegative n' (left.length - (fraction.length - cut.length : Nat)) rest
    | _ =>
      match rest with
      | 'e' :: _ => finish? isNegative n left.length rest
      | 'E' :: _ => finish? isNegative n left.length rest
      | _ =>
        if !left.isEmpty then finish? isNegative n left.length rest
        else if !isNegative then some (natural n, rest)
        else if n = 0 ∨ 0x8000000000000000 < n then some (double true (.ofNat n), rest)
        else some (negative (n - 1), rest)

/-- The number that opens a text. -/
def read? : List Char → Option (JsonNumber × List Char)
  | '-' :: cs => unsigned? true cs
  | cs => unsigned? false cs

/-- The text of a double that is not negative. -/
def doubleText (x : Binary) : String :=
  let d := Decimal.shortest x
  let digits := toString d.digits
  let point : Int := digits.length + d.exponent
  if d.digits = 0 then "0.0"
  else if 0 ≤ d.exponent ∧ point ≤ 16 then d.positional ++ ".0"
  else if -5 < point ∧ point ≤ 16 then d.positional
  else
    let mantissa := match digits.toList with
      | [c] => String.ofList [c]
      | c :: cs => String.ofList (c :: '.' :: cs)
      | [] => ""
    mantissa ++ "e" ++ toString (point - 1)

/-- The text of a number. -/
def text : JsonNumber → String
  | natural n => toString n
  | negative n => "-" ++ toString (n + 1)
  | double isNegative x => (if isNegative then "-" else "") ++ doubleText x

end JsonNumber
end ElementBuild
