/-
# Numbers and dates in TOML

Digits may be grouped by single underscores.  Integers fit 64 bits; a decimal one
has no zeros before it.  A date is a day of the calendar, a time of day, or both,
then perhaps with the distance of the clock from that of the zero meridian.
-/
import ElementBuild.Number.Decimal
import ElementBuild.Toml.Value
import ElementBuild.Text.CharSet

namespace ElementBuild
namespace Toml

/-- Digits that single underscores may group. -/
def grouped? (isDigit : Char → Bool) (cs : List Char) : Option (List Char × List Char) :=
  match cs with
  | c :: rest => if isDigit c then some (go isDigit rest.length [c] rest) else none
  | [] => none
where
  /-- Digits after the first; the length of the text bounds the steps. -/
  go (isDigit : Char → Bool) : Nat → List Char → List Char → List Char × List Char
    | 0, read, cs => (read.reverse, cs)
    | n + 1, read, '_' :: c :: cs =>
      if isDigit c then go isDigit n (c :: read) cs else (read.reverse, '_' :: c :: cs)
    | n + 1, read, c :: cs =>
      if isDigit c then go isDigit n (c :: read) cs else (read.reverse, c :: cs)
    | _ + 1, read, [] => (read.reverse, [])

/-- The number that digits write in a radix. -/
def numberOf (radix : Nat) (digits : List Char) : Nat :=
  digits.foldl (fun n c => radix * n + (Text.hexValue? c).getD 0) 0

/-- A sign, which may be left out, and whether it is minus. -/
def sign : List Char → Bool × List Char
  | '-' :: cs => (true, cs)
  | '+' :: cs => (false, cs)
  | cs => (false, cs)

/-- The digits of a decimal integer without zeros before it. -/
def wholeDigits? : List Char → Option (List Char × List Char)
  | '0' :: cs => some (['0'], cs)
  | cs => grouped? Char.isDigit cs

/-- An integer if it fits 64 bits. -/
def integer? (n : Int) : Option Toml :=
  if -0x8000000000000000 ≤ n ∧ n < 0x8000000000000000 then some (.integer n) else none

/-- An integer in another radix than ten. -/
def radixInteger? (cs : List Char) : Option (Toml × List Char) :=
  let read (radix : Nat) (isDigit : Char → Bool) (rest : List Char) : Option (Toml × List Char) := do
    let (digits, rest) ← grouped? isDigit rest
    let n ← integer? (numberOf radix digits)
    some (n, rest)
  match cs with
  | '0' :: 'x' :: rest => read 16 (fun c => (Text.hexValue? c).isSome) rest
  | '0' :: 'o' :: rest => read 8 (fun c => '0' ≤ c && c ≤ '7') rest
  | '0' :: 'b' :: rest => read 2 (fun c => c == '0' || c == '1') rest
  | _ => none

/-- A part of a float after a mark: its digits. -/
def fraction? : List Char → Option (List Char × List Char)
  | '.' :: cs => grouped? Char.isDigit cs
  | _ => none

/-- The exponent of a float. -/
def exponent? : List Char → Option (List Char × List Char)
  | c :: cs =>
    if c = 'e' ∨ c = 'E' then
      let (isNegative, rest) := sign cs
      (grouped? Char.isDigit rest).map fun (digits, rest) =>
        (if isNegative then '-' :: digits else digits, rest)
    else none
  | [] => none

/-- A float that is not too large to be finite. -/
def finite? (isNegative : Bool) (text : List Char) : Option Toml :=
  match (Number.readDecimal text).toMagnitude with
  | .infinite => if isNegative then some (.float (String.ofList ('-' :: text))) else none
  | .finite _ => some (.float (String.ofList (if isNegative then '-' :: text else text)))

/-- A decimal integer or a float. -/
def number? (cs : List Char) : Option (Toml × List Char) := do
  let (isNegative, rest) := sign cs
  match ("inf".toList.isPrefixOf? rest) <|> ("nan".toList.isPrefixOf? rest) with
  | some after => some (.float (String.ofList (cs.take (cs.length - after.length))), after)
  | none =>
    let (whole, rest) ← wholeDigits? rest
    let (fraction, afterFraction) := match fraction? rest with
      | some (digits, after) => ('.' :: digits, after)
      | none => ([], rest)
    let (exponent, after) := match exponent? afterFraction with
      | some (digits, after) => ('e' :: digits, after)
      | none => ([], afterFraction)
    if fraction.isEmpty && exponent.isEmpty then
      let n : Int := numberOf 10 whole
      let v ← integer? (if isNegative then -n else n)
      some (v, rest)
    else
      let v ← finite? isNegative (whole ++ fraction ++ exponent)
      some (v, after)

/-! ### Dates -/

/-- A number of exactly so many digits between two bounds. -/
def field? (count low high : Nat) (cs : List Char) : Option (Nat × List Char) :=
  let digits := cs.take count
  if digits.length = count ∧ digits.all Char.isDigit then
    let n := numberOf 10 digits
    if low ≤ n ∧ n ≤ high then some (n, cs.drop count) else none
  else none

/-- Passes a character. -/
def mark? (c : Char) : List Char → Option (List Char)
  | d :: cs => if c = d then some cs else none
  | [] => none

/-- The number of days of a month. -/
def daysOf (year month : Nat) : Nat :=
  if month = 2 then
    if year % 4 = 0 ∧ (year % 100 ≠ 0 ∨ year % 400 = 0) then 29 else 28
  else if [4, 6, 9, 11].contains month then 30
  else 31

/-- What follows a day of the calendar. -/
def day? (cs : List Char) : Option (List Char) := do
  let (year, cs) ← field? 4 0 9999 cs
  let (month, cs) ← field? 2 1 12 (← mark? '-' cs)
  let (_, cs) ← field? 2 1 (daysOf year month) (← mark? '-' cs)
  some cs

/-- What follows a time of day. -/
def time? (cs : List Char) : Option (List Char) := do
  let (_, cs) ← field? 2 0 23 cs
  let (_, cs) ← field? 2 0 59 (← mark? ':' cs)
  let (_, cs) ← field? 2 0 60 (← mark? ':' cs)
  match cs with
  | '.' :: rest =>
    let (digits, rest) := rest.span Char.isDigit
    if digits.isEmpty then none else some rest
  | _ => some cs

/-- What follows the distance of a clock, if there is one. -/
def dropOffset? (cs : List Char) : Option (List Char) :=
  match cs with
  | c :: rest =>
    if c = 'Z' ∨ c = 'z' then some rest
    else if c = '+' ∨ c = '-' then do
      let (_, rest) ← field? 2 0 23 rest
      let (_, rest) ← field? 2 0 59 (← mark? ':' rest)
      some rest
    else some cs
  | [] => some []

/-- What follows a day and perhaps a time. -/
def dayAndTime? (cs : List Char) : Option (List Char) := do
  let afterDay ← day? cs
  match afterDay with
  | c :: rest =>
    if c = 'T' ∨ c = 't' then (time? rest).bind dropOffset?
    else if c = ' ' then
      if rest.head?.any Char.isDigit then (time? rest).bind dropOffset? else some afterDay
    else some afterDay
  | [] => some []

/-- Whether a text opens as a date does. -/
def opensDate (cs : List Char) : Bool :=
  (cs.take 4).length = 4 && (cs.take 4).all Char.isDigit && (cs.drop 4).head? == some '-' ||
    ((cs.take 2).length = 2 && (cs.take 2).all Char.isDigit && (cs.drop 2).head? == some ':')

/-- The part of a second without zeros at its end, which has nine digits at most. -/
def shownFraction (digits : List Char) : List Char :=
  match ((digits.take 9).reverse.dropWhile (· == '0')).reverse with
  | [] => []
  | shown => '.' :: shown

/-- The distance of a clock; none has no direction. -/
def shownOffset (cs : List Char) : List Char :=
  if cs = "-00:00".toList then "+00:00".toList else cs

/-- A date as it is shown: the letters in it are large, and `T` stands before the time
of a day. -/
def shownDate (cs : List Char) : List Char :=
  let cs := cs.map fun c => if c = ' ' ∨ c = 't' then 'T' else if c = 'z' then 'Z' else c
  match cs.span (· ≠ '.') with
  | (whole, _ :: rest) =>
    whole ++ shownFraction (rest.takeWhile Char.isDigit) ++
      shownOffset (rest.dropWhile Char.isDigit)
  | (whole, []) => whole.take (whole.length - 6) ++ shownOffset (whole.drop (whole.length - 6))

/-- A date. -/
def date? (cs : List Char) : Option (Toml × List Char) :=
  ((dayAndTime? cs) <|> (time? cs)).map fun rest =>
    (.date (String.ofList (shownDate (cs.take (cs.length - rest.length)))), rest)

/-- A truth value. -/
def truth? (cs : List Char) : Option (Toml × List Char) :=
  (("true".toList.isPrefixOf? cs).map (.bool true, ·)) <|>
    (("false".toList.isPrefixOf? cs).map (.bool false, ·))

/-- A value that is neither a string nor made of values. -/
def scalar? (cs : List Char) : Option (Toml × List Char) :=
  if opensDate cs then date? cs
  else truth? cs <|> radixInteger? cs <|> number? cs

end Toml
end ElementBuild
