/-
# Numeric literals as messages show them

A number is shown by its value: the fewest digits that read back, without an
exponent however large or small it is.
-/
import ElementBuild.Number.Decimal
import ElementBuild.Text.CharSet

namespace ElementBuild
namespace Number

/-- The value of digits in a radix up to sixteen. -/
def radixValue (radix : Nat) (cs : List Char) : Nat :=
  cs.foldl (fun n c => radix * n + (Text.hexValue? c).getD 0) 0

/-- The magnitude that a numeric literal writes. -/
def literalMagnitude (raw : String) : Magnitude :=
  match raw.toList.filter (· != '_') with
  | '0' :: m :: cs =>
    if m = 'x' ∨ m = 'X' then ofNat (radixValue 16 cs)
    else if m = 'o' ∨ m = 'O' then ofNat (radixValue 8 cs)
    else if m = 'b' ∨ m = 'B' then ofNat (radixValue 2 cs)
    else (readDecimal ('0' :: m :: cs)).toMagnitude
  | cs => (readDecimal cs).toMagnitude
where
  ofNat (n : Nat) : Magnitude := Decimal.toMagnitude ⟨n, 0⟩

/-- The shown value of a numeric literal. -/
def displayed (raw : String) : String :=
  match literalMagnitude raw with
  | .infinite => "inf"
  | .finite x => (Decimal.shortest x).positional

/-- The shown value of a big-integer literal. -/
def bigDisplayed (raw : String) : String :=
  match raw.toList.filter fun c => c != '_' && c != 'n' with
  | '0' :: m :: cs =>
    if m = 'x' ∨ m = 'X' then toString (radixValue 16 cs)
    else if m = 'o' ∨ m = 'O' then toString (radixValue 8 cs)
    else if m = 'b' ∨ m = 'B' then toString (radixValue 2 cs)
    else toString (radixValue 10 ('0' :: m :: cs))
  | cs => toString (radixValue 10 cs)

end Number
end ElementBuild
