/-
# Templates

A template says what a match gives way to.

| in the template | stands for |
| --- | --- |
| `$name` | the text of a capture; the name is as long as ASCII letters, digits and underscores go |
| `${name}` | the same; the name goes up to the brace |
| `$$` | a dollar sign |
| anything else | itself |

A name that is a number is that of the capture with this number.  The text of a capture
that does not exist or took no part is empty.
-/
import ElementBuild.Pattern.Match

namespace ElementBuild
namespace Pattern
namespace Template

/-- Whether a character may stand in a name without braces. -/
def isNameChar (c : Char) : Bool := c.isAlphanum || c == '_'

/-- The name after a dollar sign, and the number of characters that it takes with its
braces. -/
def name? : List Char → Option (List Char × Nat)
  | '{' :: cs =>
    let name := cs.takeWhile (· ≠ '}')
    if name.length < cs.length then some (name, name.length + 2) else none
  | cs =>
    let name := cs.takeWhile isNameChar
    if name.isEmpty then none else some (name, name.length)

/-- The template with each name replaced by a text; the first `skip` characters belong to
the name that was replaced last. -/
def expandFrom (text : List Char → List Char) : Nat → List Char → List Char
  | _, [] => []
  | skip + 1, _ :: cs => expandFrom text skip cs
  | 0, c :: cs =>
    if c ≠ '$' then c :: expandFrom text 0 cs
    else if cs.head? = some '$' then '$' :: expandFrom text 1 cs
    else
      match name? cs with
      | some (name, length) => text name ++ expandFrom text length cs
      | none => '$' :: expandFrom text 0 cs

/-- The number that decimal digits write. -/
def numberOf (digits : List Char) : Nat :=
  digits.foldl (fun n c => 10 * n + (c.toNat - '0'.toNat)) 0

/-- The number that a name is, if it is one. -/
def number? (name : List Char) : Option Nat :=
  let digits := match name with
    | '+' :: cs => cs
    | cs => cs
  if !digits.isEmpty && digits.all Char.isDigit then some (numberOf digits) else none

end Template

/-- The text of the capture with a name or a number.  Numbers may be of any size: one that
is no number of a capture stands for nothing. -/
def Program.textOf (p : Program) (m : Match) (name : List Char) : List Char :=
  (((Template.number? name).or (p.index? name)).bind m.capture?).getD []

/-- The first match in a text replaced by a template. -/
def Program.replace (p : Program) (text template : List Char) : List Char :=
  match p.find? text with
  | some m => m.before ++ Template.expandFrom (p.textOf m) 0 template ++ m.after
  | none => text

end Pattern
end ElementBuild
