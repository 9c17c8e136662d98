/-
# Mapping rules

A rule says for the specifiers that its key applies to what they become and
whether the module they name is copied.  It is written as a template or as an
object:

| member | what it says | if absent |
| --- | --- | --- |
| `alias` | the specifier under which the module is found | the specifier itself |
| `destination` | what is written in its place | the alias |
| `copy_module` | whether the module is copied | as the build says |
-/
import ElementBuild.Json.Value

namespace ElementBuild
namespace Mapping

/-- The right side of a mapping rule. -/
inductive Rule where
  | replace (template : String)
  | detailed (aliased destination : Option String) (copies : Option Bool)
  deriving DecidableEq, Repr

namespace Rule

/-- The rule that a value writes. -/
def ofJson? : Json → Option Rule
  | .string s => some (replace s)
  | .object members => do
    let aliased ← Json.optional? Json.string? members "alias"
    let destination ← Json.optional? Json.string? members "destination"
    let copies ← Json.optional? Json.bool? members "copy_module"
    some (detailed aliased destination copies)
  | _ => none

end Rule

/-- Puts a value under a name; one that was there gives way, and keeps its
place. -/
def putNamed {α : Type} (name : String) (value : α) : List (String × α) → List (String × α)
  | [] => [(name, value)]
  | x :: xs => if x.1 = name then (x.1, value) :: xs else x :: putNamed name value xs

end Mapping
end ElementBuild
