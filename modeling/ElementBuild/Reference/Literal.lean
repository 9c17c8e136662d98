/-
# Replacing the literal of a reference

A new target is written between the quotes that the old literal had.
-/
import ElementBuild.Reference.Scan
import ElementBuild.Text.Splice

namespace ElementBuild
namespace Reference

/-- The quote at an offset of a text; the single one if there is none. -/
def quoteAt (code : List Char) (offset : Nat) : Char :=
  match (Text.splitAt? code offset).map (·.2) with
  | some ('"' :: _) => '"'
  | _ => '\''

/-- A target between the quotes of the literal that starts at an offset. -/
def quoted (code : List Char) (offset : Nat) (target : String) : List Char :=
  let quote := quoteAt code offset
  quote :: target.toList ++ [quote]

/-- What a literal holds between its first and last byte. -/
def content? (code : List Char) (literal : Script.Span) : Option (List Char) :=
  (Text.slice? code literal.start literal.stop).bind fun raw =>
    if raw.isEmpty then none else Text.slice? raw 1 (Text.byteLength raw - 1)

/-- The edit that puts a target into the literal of a reference. -/
def retarget (code : List Char) (literal : Script.Span) (target : String) : Text.Edit :=
  ⟨quoted code literal.start target, literal.start, literal.stop⟩

/-- The same, unless the literal does not spell the old target between its
quotes. -/
def retarget? (code : List Char) (r : Reference) (target : String) : Option Text.Edit :=
  if content? code r.literal = some r.target.toList then some (retarget code r.literal target)
  else none

end Reference
end ElementBuild
