/-
# Reading JSON

The strict grammar: blanks are spaces, tabs and line breaks, strings hold no
control characters and escapes name whole characters, values nest at most 127
deep, and nothing but blanks follows the value.  Where only some members of an object
are asked for, the others are read less strictly.
-/
import ElementBuild.Json.Number
import ElementBuild.Text.CharSet

namespace ElementBuild
namespace Json

/-- Text without the blanks at its beginning. -/
def dropBlanks (cs : List Char) : List Char :=
  cs.dropWhile fun c => c == ' ' || c == '\n' || c == '\t' || c == '\r'

/-- Four hexadecimal digits. -/
def hexQuad? (cs : List Char) : Option (Nat × List Char) :=
  let digits := cs.take 4
  if digits.length = 4 ∧ digits.all fun c => (Text.hexValue? c).isSome then
    some (Text.hexNumber digits, cs.drop 4)
  else none

/-- The character of an escape after `u`; characters beyond the first plane are
written as two units. -/
def unicodeEscape? (cs : List Char) : Option (Char × List Char) := do
  let (unit, rest) ← hexQuad? cs
  if 0xd800 ≤ unit ∧ unit < 0xdc00 then
    let rest ← "\\u".toList.isPrefixOf? rest
    let (low, rest) ← hexQuad? rest
    if 0xdc00 ≤ low ∧ low < 0xe000 then
      some (Char.ofNat (0x10000 + (unit - 0xd800) * 0x400 + (low - 0xdc00)), rest)
    else none
  else if 0xdc00 ≤ unit ∧ unit < 0xe000 then none
  else some (Char.ofNat unit, rest)

/-- The character of an escape after the backslash. -/
def escape? : List Char → Option (Char × List Char)
  | '"' :: cs => some ('"', cs)
  | '\\' :: cs => some ('\\', cs)
  | '/' :: cs => some ('/', cs)
  | 'b' :: cs => some ('\x08', cs)
  | 'f' :: cs => some ('\x0c', cs)
  | 'n' :: cs => some ('\n', cs)
  | 'r' :: cs => some ('\r', cs)
  | 't' :: cs => some ('\t', cs)
  | 'u' :: cs => unicodeEscape? cs
  | _ => none

/-- The rest of a string after its opening quote, given what was read so far in
reverse. -/
def stringTail? : Nat → List Char → List Char → Option (String × List Char)
  | 0, _, _ => none
  | _, _, [] => none
  | n + 1, read, c :: cs =>
    if c = '"' then some (String.ofList read.reverse, cs)
    else if c = '\\' then (escape? cs).bind fun (c, cs) => stringTail? n (c :: read) cs
    else if c.toNat < 0x20 then none
    else stringTail? n (c :: read) cs

/-- A string. -/
def readString? : List Char → Option (String × List Char)
  | '"' :: cs => stringTail? (cs.length + 1) [] cs
  | _ => none

/-- The items of an array after its first blanks, up to the bracket that closes
it. -/
def items? (value : List Char → Option (Json × List Char)) :
    Nat → List Json → List Char → Option (List Json × List Char)
  | 0, _, _ => none
  | n + 1, read, cs => do
    let (v, cs) ← value (dropBlanks cs)
    match dropBlanks cs with
    | ',' :: cs => items? value n (v :: read) cs
    | ']' :: cs => some ((v :: read).reverse, cs)
    | _ => none

/-- The members of an object, up to the brace that closes it, given how names and
the values under them are read. -/
def members? (name : List Char → Option (String × List Char))
    (value : String → List Char → Option (Json × List Char)) :
    Nat → List (String × Json) → List Char → Option (List (String × Json) × List Char)
  | 0, _, _ => none
  | n + 1, read, cs => do
    let (key, cs) ← name (dropBlanks cs)
    let cs ← [':'].isPrefixOf? (dropBlanks cs)
    let (v, cs) ← value key (dropBlanks cs)
    match dropBlanks cs with
    | ',' :: cs => members? name value n ((key, v) :: read) cs
    | '}' :: cs => some (((key, v) :: read).reverse, cs)
    | _ => none

/-- One of the words that are values. -/
def word? (cs : List Char) : Option (Json × List Char) :=
  ((("null".toList.isPrefixOf? cs).map (null, ·)) <|>
    (("true".toList.isPrefixOf? cs).map (bool true, ·))) <|>
    (("false".toList.isPrefixOf? cs).map (bool false, ·))

/-- A value that nests less than a depth. -/
def value? : Nat → List Char → Option (Json × List Char)
  | _, [] => none
  | 0, _ => none
  | depth + 1, c :: cs =>
    if c = '"' then (readString? (c :: cs)).map fun (s, rest) => (string s, rest)
    else if c = '-' ∨ c.isDigit then
      (JsonNumber.read? (c :: cs)).map fun (n, rest) => (number n, rest)
    else if c = '[' then
      if depth = 0 then none
      else
        match dropBlanks cs with
        | ']' :: rest => some (array [], rest)
        | cs => (items? (value? depth) (cs.length + 1) [] cs).map fun (vs, rest) => (array vs, rest)
    else if c = '{' then
      if depth = 0 then none
      else
        match dropBlanks cs with
        | '}' :: rest => some (object [], rest)
        | cs =>
          (members? readString? (fun _ => value? depth) (cs.length + 1) [] cs).map
            fun (ms, rest) => (object ms, rest)
    else word? (c :: cs)

/-- The depth up to which values are read. -/
def depthLimit : Nat := 128

/-- The value that a text holds. -/
def read? (text : String) : Option Json :=
  match value? depthLimit (dropBlanks text.toList) with
  | some (v, rest) => if (dropBlanks rest).isEmpty then some v else none
  | none => none

/-! ### Values that are passed over

What nobody asks for has to have the form of a value, and no more: numbers may be too
large, escapes may name no character, and values may nest to any depth.
-/

/-- What follows the rest of a string after its opening quote. -/
def passTail? : List Char → Option (List Char)
  | [] => none
  | '"' :: cs => some cs
  | '\\' :: 'u' :: a :: b :: c :: d :: cs =>
    if [a, b, c, d].all fun c => (Text.hexValue? c).isSome then passTail? cs else none
  | '\\' :: c :: cs => if ['"', '\\', '/', 'b', 'f', 'n', 'r', 't'].contains c then passTail? cs else none
  | c :: cs => if c.toNat < 0x20 then none else passTail? cs

/-- Passes over a string; its text does not matter. -/
def passString? : List Char → Option (String × List Char)
  | '"' :: cs => (passTail? cs).map ("", ·)
  | _ => none

/-- What follows at least one digit. -/
def passDigits? : List Char → Option (List Char)
  | [] => none
  | c :: cs => if c.isDigit then some (cs.dropWhile Char.isDigit) else none

/-- What follows the exponent of a number, if there is one. -/
def passExponent? : List Char → Option (List Char)
  | [] => some []
  | c :: cs =>
    if c = 'e' ∨ c = 'E' then
      match cs with
      | '+' :: cs => passDigits? cs
      | '-' :: cs => passDigits? cs
      | cs => passDigits? cs
    else some (c :: cs)

/-- What follows a number without its sign. -/
def passNumber? (cs : List Char) : Option (List Char) := do
  let rest ← passDigits? cs
  if cs.head? = some '0' ∧ (cs.drop 1).head?.any Char.isDigit then none
  else
    match rest with
    | '.' :: rest => (passDigits? rest).bind passExponent?
    | rest => passExponent? rest

/-- Passes over a value; the steps inwards are bounded. -/
def passValue? : Nat → List Char → Option (Json × List Char)
  | _, [] => none
  | 0, _ => none
  | depth + 1, c :: cs =>
    if c = '"' then (passTail? cs).map (null, ·)
    else if c = '-' then (passNumber? cs).map (null, ·)
    else if c.isDigit then (passNumber? (c :: cs)).map (null, ·)
    else if c = '[' then
      match dropBlanks cs with
      | ']' :: rest => some (null, rest)
      | cs => (items? (passValue? depth) (cs.length + 1) [] cs).map fun (_, rest) => (null, rest)
    else if c = '{' then
      match dropBlanks cs with
      | '}' :: rest => some (null, rest)
      | cs => (members? passString? (fun _ => passValue? depth) (cs.length + 1) [] cs).map
          fun (_, rest) => (null, rest)
    else word? (c :: cs)

/-- The members of the object that a text holds, of which those with the given names
are read and the others passed over. -/
def readMembers? (names : List String) (text : String) : Option (List (String × Json)) :=
  let value (name : String) : List Char → Option (Json × List Char) :=
    if names.contains name then value? (depthLimit - 1) else passValue? text.length
  match dropBlanks text.toList with
  | '{' :: cs =>
    match dropBlanks cs with
    | '}' :: rest => if (dropBlanks rest).isEmpty then some [] else none
    | cs =>
      match members? readString? value (cs.length + 1) [] cs with
      | some (ms, rest) => if (dropBlanks rest).isEmpty then some ms else none
      | none => none
  | _ => none

end Json
end ElementBuild
