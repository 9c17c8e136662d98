/-
# Copying scripts with what they refer to

A script is copied together with every relative script that it imports or exports
from.  The copy of such a script lands where its specifier leads from the copy of
the importing one, confined below a base folder, and the specifier is written anew
to lead there.

A pair of a file and a destination is claimed before its script is read, so scripts
that import each other are copied once.
-/
import ElementBuild.Build.Session
import ElementBuild.Path.Confined
import ElementBuild.Reference.Literal

namespace ElementBuild

/-- The folder of a path; the empty path if it has none. -/
def Path.folder (p : Path) : Path := p.parent?.getD ⟨""⟩

namespace Copy

/-- What is looked for in a script that is copied. -/
def scanOptions : ScanOptions := { withExports := true }

/-- Whether the script that a reference names is copied too. -/
def follows (r : Reference) : Bool := r.kind == .plainCode && Specifier.isRelative r.target

/-- Where the script that a reference names lands, given where the importing one
does. -/
def landing (base destination : Path) (r : Reference) : Path :=
  Path.confine base (destination.folder.join ⟨r.target⟩)

/-- The specifier of a landing place, seen from the folder of the importing
copy. -/
def specifier (destination : Path) (r : Reference) (landing : Path) : String :=
  (Path.specifierFrom? destination.folder landing).getD r.target

/-- Makes the folder of a file. -/
def createFolder (folder : Path) : Step Unit :=
  Step.during (.creatingFolder folder) (Step.createFolders folder)

/-- Handles one reference of a script: its specifier in the draft is written anew,
and its script is copied by `copyOn`. -/
def followReference (copyOn : Path → Path → Step Unit) (source destination base : Path)
    (code : List Char) (draft : Text.Draft) (r : Reference) : Step Text.Draft := do
  let found ← Step.resolve r.target [source.folder]
  let landing := landing base destination r
  Step.trace (.followed ⟨source.folder, destination.folder, r.target, found, landing⟩)
  match landing.parent? with
  | some folder => createFolder folder
  | none => pure ()
  let draft ← Step.edit draft (Reference.retarget code r.literal (specifier destination r landing))
  copyOn found landing
  return draft

/-- Copies a script that was claimed, and what it refers to by `copyOn`. -/
def copyClaimed (copyOn : Path → Path → Step Unit) (source destination base : Path) :
    Step Unit := do
  let code ← Step.during (.reading source) (Step.read source)
  let references ← Step.during (.parsing source) (Step.scan scanOptions code)
  let draft ← (references.filter follows).foldlM
    (followReference copyOn source destination base code.toList) (Text.Draft.ofString code)
  createFolder destination.folder
  Step.during (.writing destination) (Step.write source destination draft.toString)

/-- Copies a script and what it refers to, to a depth. -/
def script : Nat → Path → Path → Path → Step Unit
  | 0, _, _, _ => Step.fail .endless
  | depth + 1, source, destination, base => do
    if ← Step.claim source destination then
      copyClaimed (fun s d => script depth s d base) source destination base

/-- A bound for the names of copies, in bytes. -/
def nameLimit (destination base : Path) : Nat :=
  FileTree.pathLimit + base.text.utf8ByteSize + destination.folder.text.utf8ByteSize + 3

/-- A depth that is never reached.  A script that is copied on the way is told by its path,
the path of the folder where it lands and its name there, and all three are short. -/
def depthLimit (destination base : Path) : Nat :=
  Nat.pow 257 (2 * FileTree.pathLimit + nameLimit destination base) + 2

end Copy

/-- Copies a script and what it refers to, below a base folder. -/
def copyScript (source destination base : Path) : Step Unit :=
  Copy.script (Copy.depthLimit destination base) source destination base

end ElementBuild
