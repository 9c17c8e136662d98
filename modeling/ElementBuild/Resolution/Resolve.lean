/-
# Resolving specifiers to files

A relative specifier is looked for below each search path in turn, the name of a
package in the `node_modules` folders of each search path and of the folders above
it.  A path stands for the file it names, for the file with one of the probed
extensions, or for the main file of a folder.  The answer is the canonical path of
an existing file.
-/
import ElementBuild.FileTree.Find
import ElementBuild.FileTree.Access
import ElementBuild.Resolution.Specifier
import ElementBuild.Resolution.Manifest

namespace ElementBuild

/-- Why a specifier is not resolved. -/
inductive ResolveError where
  | notFound (specifier : String)
  | badManifest (path : Path)
  | unreadable (path : Path) (e : FileError)
  deriving DecidableEq, Repr

namespace ResolveError

/-- What is wrong. -/
def message : ResolveError → String
  | notFound specifier => "cannot resolve module " ++ specifier
  | badManifest path => "invalid package manifest " ++ path.text
  | unreadable path _ => "failed to read " ++ path.text

end ResolveError

namespace FileTree

/-- The extensions that are tried where a path names no file. -/
def probedExtensions : List String := ["js", "json", "mjs"]

/-- The file of a path: the one it names, or the first with a probed
extension. -/
def probe? (t : FileTree) (p : Path) : Option Path :=
  if t.isFile p then some p
  else
    p.fileName?.bind fun name =>
      (probedExtensions.map fun ext => p.withFileName (name ++ "." ++ ext)).find? t.isFile

/-- The index file of a folder. -/
def index? (t : FileTree) (folder : Path) : Option Path :=
  (probedExtensions.map fun ext => folder.join ⟨"index." ++ ext⟩).find? t.isFile

/-- The manifest of a package, if there is one. -/
def manifest? (t : FileTree) (package : Path) : Except ResolveError (Option Json) :=
  let p := package.join ⟨Manifest.fileName⟩
  if t.isFile p then
    match t.readText p with
    | .ok text =>
      match Json.read? text with
      | some manifest => .ok (some manifest)
      | none => .error (.badManifest p)
    | .error e => .error (.unreadable p e)
  else .ok none

/-- The file of a path that a manifest names as main. -/
def main? (t : FileTree) (p : Path) : Option Path :=
  t.probe? p <|> (if t.isFolder p then t.index? p else none)

/-- The file that stands for a package without `exports`. -/
def packageMain? (t : FileTree) (package : Path) (manifest : Option Json) : Option Path :=
  let named := (manifest.map Manifest.mains).getD []
  (named.findSome? fun main => t.main? (package.join ⟨main⟩)) <|> t.index? package

/-- The file that a package exports. -/
def exported? (t : FileTree) (package : Path) (exports : Json) (subpath : Option String) :
    Option Path :=
  let key := match subpath with
    | some s => "./" ++ s
    | none => "."
  (Manifest.exportTarget? exports key).bind fun target => t.probe? (package.join ⟨target⟩)

/-- The file that stands for a package. -/
def package? (t : FileTree) (package : Path) : Except ResolveError (Option Path) := do
  let manifest ← t.manifest? package
  match manifest.bind (·.member? "exports") with
  | some exports => return t.exported? package exports none
  | none => return t.packageMain? package manifest

/-- The file of a path, which may be that of a folder. -/
def fileOrFolder? (t : FileTree) (p : Path) : Except ResolveError (Option Path) :=
  match t.probe? p with
  | some file => .ok (some file)
  | none => if t.isFolder p then t.package? p else .ok none

/-- The file for a path below a package. -/
def packageFile? (t : FileTree) (package : Path) :
    Option String → Except ResolveError (Option Path)
  | none => t.package? package
  | some subpath => do
    let manifest ← t.manifest? package
    match manifest.bind (·.member? "exports") with
    | some exports => return t.exported? package exports (some subpath)
    | none => t.fileOrFolder? (package.join ⟨subpath⟩)

/-- The first result that a search finds; an error ends it. -/
def firstFound (search : Path → Except ResolveError (Option Path)) :
    List Path → Except ResolveError (Option Path)
  | [] => .ok none
  | p :: ps =>
    match search p with
    | .ok none => firstFound search ps
    | r => r

/-- The file of a bare specifier, looked for from a folder upwards. -/
def bare? (t : FileTree) (specifier : String) (folder : Path) :
    Except ResolveError (Option Path) :=
  let (name, subpath) := Specifier.splitPackage specifier
  firstFound (fun dir =>
    let package := (dir.join ⟨"node_modules"⟩).join ⟨name⟩
    if t.isFolder package then t.packageFile? package subpath else .ok none) folder.ancestors

/-- The file of a specifier, as it is found. -/
def search (t : FileTree) (specifier : String) (paths : List Path) :
    Except ResolveError (Option Path) :=
  if (Path.mk specifier).isAbsolute then t.fileOrFolder? ⟨specifier⟩
  else if Specifier.isRelative specifier then
    firstFound (fun base => t.fileOrFolder? (base.join ⟨specifier⟩)) paths
  else firstFound (t.bare? specifier) paths

/-- The canonical path of the file of a specifier. -/
def resolve (t : FileTree) (specifier : String) (paths : List Path) : Except ResolveError Path := do
  match (← t.search specifier paths) with
  | none => .error (.notFound specifier)
  | some found =>
    match t.canonical found with
    | .ok p => .ok p
    | .error e => .error (.unreadable found e)

end FileTree
end ElementBuild
