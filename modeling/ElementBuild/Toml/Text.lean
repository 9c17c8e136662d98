/-
# Strings and blanks in TOML

Basic strings have escapes, literal strings have none; both come in a form for one
line and, between three quotes, in a form for several.  A line break right after
the three quotes does not count, and one or two quotes may stand before the three
that close.  Control characters other than tabs appear in no string.
-/
import ElementBuild.Text.CharSet

namespace ElementBuild
namespace Toml

/-- Text without the blanks at its beginning. -/
def dropBlanks (cs : List Char) : List Char := cs.dropWhile fun c => c == ' ' || c == '\t'

/-- The rest of a text after a line break. -/
def lineBreak? : List Char → Option (List Char)
  | '\n' :: cs => some cs
  | '\r' :: '\n' :: cs => some cs
  | _ => none

/-- Whether a character may stand in a comment or a string. -/
def isPrintable (c : Char) : Bool := c == '\t' || (0x20 ≤ c.toNat && c.toNat != 0x7f)

/-- Text without the comment at its beginning. -/
def dropComment : List Char → List Char
  | '#' :: cs => cs.dropWhile isPrintable
  | cs => cs

/-- The end of a line: blanks and a comment before a line break or the end of the
text. -/
def lineEnd? (cs : List Char) : Option (List Char) :=
  match dropComment (dropBlanks cs) with
  | [] => some []
  | rest => lineBreak? rest

/-- Text without blanks, comments and line breaks at its beginning; its length
bounds the steps. -/
def dropFiller : Nat → List Char → List Char
  | 0, cs => cs
  | n + 1, cs =>
    let cs := dropBlanks cs
    match cs with
    | '#' :: _ =>
      match lineBreak? (dropComment cs) with
      | some rest => dropFiller n rest
      | none => cs
    | _ =>
      match lineBreak? cs with
      | some rest => dropFiller n rest
      | none => cs

/-- The character that a number of hexadecimal digits write. -/
def hexChar? (count : Nat) (cs : List Char) : Option (Char × List Char) :=
  let digits := cs.take count
  if digits.length = count ∧ digits.all fun c => (Text.hexValue? c).isSome then
    let n := Text.hexNumber digits
    if n.isValidChar then some (Char.ofNat n, cs.drop count) else none
  else none

/-- The character of an escape after its backslash. -/
def escape? : List Char → Option (Char × List Char)
  | 'b' :: cs => some ('\x08', cs)
  | 't' :: cs => some ('\t', cs)
  | 'n' :: cs => some ('\n', cs)
  | 'f' :: cs => some ('\x0c', cs)
  | 'r' :: cs => some ('\r', cs)
  | '"' :: cs => some ('"', cs)
  | '\\' :: cs => some ('\\', cs)
  | 'u' :: cs => hexChar? 4 cs
  | 'U' :: cs => hexChar? 8 cs
  | _ => none

/-- A basic string on one line, after its quote. -/
def basic? : Nat → List Char → List Char → Option (String × List Char)
  | 0, _, _ => none
  | _, _, [] => none
  | n + 1, read, c :: cs =>
    if c = '"' then some (String.ofList read.reverse, cs)
    else if c = '\\' then (escape? cs).bind fun (c, cs) => basic? n (c :: read) cs
    else if isPrintable c then basic? n (c :: read) cs
    else none

/-- A literal string on one line, after its quote. -/
def literal? (cs : List Char) : Option (String × List Char) :=
  match cs.span fun c => isPrintable c && c != '\'' with
  | (text, '\'' :: rest) => some (String.ofList text, rest)
  | _ => none

/-- The quotes before the three that close a string, and what follows these. -/
def closing? (quote : Char) (cs : List Char) : Option (List Char × List Char) :=
  let quotes := cs.takeWhile (· == quote)
  if quotes.length < 3 then none
  else
    let inside := min (quotes.length - 3) 2
    some (List.replicate inside quote, cs.drop (inside + 3))

/-- Text without blanks and line breaks at its beginning. -/
def dropBreaks : Nat → List Char → List Char
  | 0, cs => cs
  | n + 1, cs =>
    let cs := dropBlanks cs
    match lineBreak? cs with
    | some rest => dropBreaks n rest
    | none => cs

/-- A basic string on several lines, after its quotes.  A backslash at the end of a
line takes the line break and the blanks after it away. -/
def basicLines? : Nat → List Char → List Char → Option (String × List Char)
  | 0, _, _ => none
  | _, _, [] => none
  | n + 1, read, c :: cs =>
    match closing? '"' (c :: cs) with
    | some (quotes, rest) => some (String.ofList (read.reverse ++ quotes), rest)
    | none =>
      match lineBreak? (c :: cs) with
      | some rest => basicLines? n ('\n' :: read) rest
      | none =>
        if c = '\\' then
          match lineBreak? (dropBlanks cs) with
          | some rest => basicLines? n read (dropBreaks rest.length rest)
          | none => (escape? cs).bind fun (c, cs) => basicLines? n (c :: read) cs
        else if isPrintable c then basicLines? n (c :: read) cs
        else none

/-- A literal string on several lines, after its quotes. -/
def literalLines? : Nat → List Char → List Char → Option (String × List Char)
  | 0, _, _ => none
  | _, _, [] => none
  | n + 1, read, c :: cs =>
    match closing? '\'' (c :: cs) with
    | some (quotes, rest) => some (String.ofList (read.reverse ++ quotes), rest)
    | none =>
      match lineBreak? (c :: cs) with
      | some rest => literalLines? n ('\n' :: read) rest
      | none => if isPrintable c then literalLines? n (c :: read) cs else none

/-- Text without one line break at its beginning. -/
def dropBreak (cs : List Char) : List Char := (lineBreak? cs).getD cs

/-- A string of any form. -/
def quoted? (cs : List Char) : Option (String × List Char) :=
  match cs with
  | '"' :: '"' :: '"' :: rest => basicLines? (rest.length + 1) [] (dropBreak rest)
  | '\'' :: '\'' :: '\'' :: rest => literalLines? (rest.length + 1) [] (dropBreak rest)
  | '"' :: rest => basic? (rest.length + 1) [] rest
  | '\'' :: rest => literal? rest
  | _ => none

end Toml
end ElementBuild
