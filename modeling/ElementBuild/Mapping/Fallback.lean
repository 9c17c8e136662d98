/-
# Falling back to parent paths

A specifier that is not resolved may name a file that its package does not show.
It is tried without its extension, and then without its last part, its last two
parts and so on; what was left off is looked for beside the file that the rest
leads to.
-/
import ElementBuild.Build.Session
import ElementBuild.Reference.Kind

namespace ElementBuild
namespace Mapping

/-- The extensions that are left off first. -/
def moduleExtensions : List String := [".json", ".mjs", ".js"]

/-- A specifier without the extension of a module. -/
def withoutExtension (s : String) : String :=
  match moduleExtensions.findSome? fun e => Target.dropSuffix? e.toList s.toList with
  | some cs => String.ofList cs
  | none => s

/-- A reversed specifier without its last part, which has to be a word. -/
def dropLastPart? (reversed : List Char) : Option (List Char) :=
  match reversed.span Text.isWordChar with
  | (_ :: _, '/' :: rest) => some rest
  | _ => none

/-- The specifiers that are left of a reversed one after one part, two parts and so
on, as long as the last part is a word. -/
def shorterFrom : Nat → List Char → List String
  | 0, _ => []
  | n + 1, reversed =>
    match dropLastPart? reversed with
    | some rest => String.ofList rest.reverse :: shorterFrom n rest
    | none => []

/-- The shorter specifiers that are tried in place of one. -/
def shorter (s : String) : List String := shorterFrom s.length s.toList.reverse

/-- What an alias has after one of its beginnings, without slashes before it. -/
def remainder (aliased beginning : String) : String :=
  String.ofList ((aliased.toList.drop beginning.length).dropWhile (· == '/'))

/-- The path of the first shorter specifier that resolves, with the remainder of
the alias beside it. -/
def throughShorter? (t : FileTree) (aliased : String) (paths : List Path) : List String → Option Path
  | [] => none
  | s :: ss =>
    match t.resolve s paths with
    | .ok found => some ((found.parent?.getD found).join ⟨remainder aliased s⟩)
    | .error _ => throughShorter? t aliased paths ss

/-- The path that an alias leads to once it is not resolved itself. -/
def fallback? (t : FileTree) (aliased : String) (paths : List Path) : Option Path :=
  let stripped := withoutExtension aliased
  let direct := if stripped = aliased then none else (t.resolve stripped paths).toOption
  direct <|> throughShorter? t aliased paths (shorter stripped)

/-- Resolves an alias, if need be through a shorter specifier. -/
def resolveAlias (aliased : String) (paths : List Path) : Step Path := do
  let t ← Step.files
  match t.resolve aliased paths with
  | .ok p => return p
  | .error e =>
    Step.tell (.warning (e.message ++ ", trying parent paths"))
    match fallback? t aliased paths with
    | some p => return p
    | none => Step.fail (.resolve e)

end Mapping
end ElementBuild
