/-
# Keys of mapping rules

A key is a specifier taken literally, or a pattern between `/^` and `$/`; a pattern
writes a slash as `\/` or `/`.  In the templates of its rule `$` and digits stand for
the text of a capture, and any other `$` stands for itself: a template is written
anew with braces around the digits and with every other `$` twice, and the first match
of the pattern in a target gives way to what that template of the pattern stands for.
-/
import ElementBuild.Pattern.Template

namespace ElementBuild
namespace Mapping

/-- The left side of a mapping rule. -/
inductive Key where
  | literal (specifier : String)
  | pattern (program : Pattern.Program)
  deriving Repr

/-- Text with `\/` written as `/`. -/
def unescapeSlashes : List Char → List Char
  | '\\' :: '/' :: cs => '/' :: unescapeSlashes cs
  | c :: cs => c :: unescapeSlashes cs
  | [] => []

/-- A dollar sign in a template of a pattern, given the digits after it. -/
def dollar (digits : List Char) : List Char :=
  if digits.isEmpty then ['$', '$'] else '$' :: '{' :: digits ++ ['}']

/-- The template of a pattern that a template of a rule means; the first `skip` characters
are the digits that were put in braces last. -/
def bracedFrom : Nat → List Char → List Char
  | _, [] => []
  | skip + 1, _ :: cs => bracedFrom skip cs
  | 0, c :: cs =>
    if c = '$' then
      let digits := cs.takeWhile Text.isDigit
      dollar digits ++ bracedFrom digits.length cs
    else c :: bracedFrom 0 cs

namespace Key

/-- The pattern that a key writes, if it has the form of one. -/
def patternText? (key : String) : Option String :=
  let cs := key.toList
  if 3 < key.utf8ByteSize ∧ "/^".toList.isPrefixOf cs ∧ "/$".toList.isPrefixOf cs.reverse then
    some (String.ofList (unescapeSlashes (cs.drop 1).dropLast))
  else none

/-- The key that a text writes, unless it is a malformed pattern. -/
def ofText? (key : String) : Option Key :=
  match patternText? key with
  | some text => (Pattern.compile? text).map pattern
  | none => some (literal key)

/-- Whether a key applies to a target. -/
def matchesTarget (target : String) : Key → Bool
  | literal s => s == target
  | pattern p => p.matchesIn target.toList

/-- The target with its first match replaced by a template; a literal key gives
the template itself. -/
def substitute (target template : String) : Key → String
  | literal _ => template
  | pattern p => String.ofList (p.replace target.toList (bracedFrom 0 template.toList))

end Key
end Mapping
end ElementBuild
