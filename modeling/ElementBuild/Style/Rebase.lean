/-
# Rebasing the addresses of a stylesheet

A stylesheet names the files of its component as `url(./assets/…)` and
`url(./styles/…)`.  Once it is served from a public folder these are written
`url(<folder>/assets/…)`, with the quote that stood before the address on both
sides of it and without blanks around it.
-/
import ElementBuild.Text.Letters

namespace ElementBuild
namespace Style

/-- An address of a file of the component, with the quote before it. -/
structure LocalAddress where
  quote : Option Char
  path : List Char
  deriving DecidableEq, Repr

/-- Whether a character is a quote. -/
def isQuote (c : Char) : Bool := c == '\'' || c == '"'

/-- An optional quote. -/
def quote? : List Char → Option Char × List Char
  | c :: cs => if isQuote c then (some c, cs) else (none, c :: cs)
  | [] => (none, [])

/-- A path below one of the folders that hold files of a component. -/
def localPath? (cs : List Char) : Option (List Char × List Char) :=
  let folder? := ["assets/", "styles/"].find? fun folder => folder.toList.isPrefixOf cs
  folder?.bind fun folder =>
    let (name, rest) := (cs.drop folder.length).span fun c => !(isQuote c || c == ')')
    if name.isEmpty then none else some (folder.toList ++ name, rest)

/-- A local address in its parentheses, and what follows it. -/
def localAddress? (cs : List Char) : Option (LocalAddress × List Char) := do
  let cs ← "url(".toList.isPrefixOf? cs
  let (quote, cs) := quote? (cs.dropWhile Text.isBlank)
  let cs ← "./".toList.isPrefixOf? cs
  let (path, cs) ← localPath? cs
  match (quote? cs).2.dropWhile Text.isBlank with
  | ')' :: rest => some (⟨quote, path⟩, rest)
  | _ => none

/-- An address as it is written once it is rebased. -/
def LocalAddress.render (folder : List Char) (a : LocalAddress) : List Char :=
  "url(".toList ++ a.quote.toList ++ folder ++ '/' :: a.path ++ a.quote.toList ++ [')']

/-- The rebased text; each local address leaves less to read, so the length of
the text bounds the steps. -/
def rebaseFrom (folder : List Char) : Nat → List Char → List Char
  | 0, cs => cs
  | _, [] => []
  | n + 1, c :: cs =>
    match localAddress? (c :: cs) with
    | some (address, rest) => address.render folder ++ rebaseFrom folder n rest
    | none => c :: rebaseFrom folder n cs

/-- A folder without slashes at its end. -/
def withoutSlashes (folder : String) : List Char :=
  (folder.toList.reverse.dropWhile (· == '/')).reverse

/-- The stylesheet for a public folder. -/
def rebase (folder css : String) : String :=
  String.ofList (rebaseFrom (withoutSlashes folder) css.length css.toList)

end Style
end ElementBuild
