/-
# Reading and changing files

A file is written whole: what stood there before is gone.  Where a link leads to
an empty place, writing fills that place.  A folder is made together with the
folders above it that are missing.
-/
import ElementBuild.FileTree.Find

namespace ElementBuild
namespace FileTree

/-- The content of a file. -/
def read (t : FileTree) (p : Path) : Except FileError Content := do
  let l ← t.locate p
  match t.get? l with
  | some (.file content) => .ok content
  | _ => .error .isADirectory

/-- The text of a file. -/
def readText (t : FileTree) (p : Path) : Except FileError String := do
  match (← t.read p) with
  | .text s => .ok s
  | .bytes _ => .error .invalidData

/-- A path without the slashes at its end. -/
def withoutEndSlashes (p : Path) : Path :=
  ⟨String.ofList (p.text.toList.reverse.dropWhile (· == '/')).reverse⟩

/-- The place of the file that a path names, made or not; a folder is none, and
a path that ends in a slash names none. -/
def fileLocation (t : FileTree) (p : Path) : Except FileError Location := do
  let isOpen := p.text.toList.getLast? == some '/'
  match (← t.find (if isOpen then withoutEndSlashes p else p)) with
  | .vacant folder name => if isOpen then .error .isADirectory else .ok (folder ++ [name])
  | .entry l =>
    match t.get? l with
    | some (.file _) => if isOpen then .error .isADirectory else .ok l
    | _ => .error .isADirectory

/-- Writes a file. -/
def write (t : FileTree) (p : Path) (content : Content) : Except FileError FileTree :=
  (t.fileLocation p).map fun l => t.set l (.file content)

/-- Copies the file that a path leads to.  The target is emptied first, so a file
that is copied onto itself is lost. -/
def copyFile (t : FileTree) (source target : Path) : Except FileError FileTree := do
  let l ← t.locate source
  match t.get? l with
  | some (.file _) =>
    let emptied ← t.write target (.text "")
    match emptied.get? l with
    | some (.file content) => emptied.write target content
    | _ => .error .invalidInput
  | _ => .error .invalidInput

/-- Whether a piece of a path is a name. -/
def isName (piece : String) : Bool := piece ≠ "." && piece ≠ ".."

/-- Whether a path ends at a link, which is not followed. -/
def isLink (t : FileTree) (p : Path) : Bool :=
  let pieces := piecesOf p.text.toList
  match pieces.getLast?, t.findPieces p (pieces.dropLast ++ ["."]) with
  | some name, .ok (.entry folder) =>
    isName name && match t.get? (folder ++ [name]) with
      | some (.link _) => true
      | _ => false
  | _, _ => false

/-- Makes one folder in a folder that exists.  Where a link stands there is no room
for a folder, wherever the link leads. -/
def createFolder (t : FileTree) (p : Path) : Except FileError FileTree := do
  let pieces := piecesOf (withoutEndSlashes p).text.toList
  match pieces.getLast? with
  | some name =>
    if isName name then
      match (← t.findPieces p (pieces.dropLast ++ ["."])) with
      | .vacant _ _ => .error .notFound
      | .entry folder =>
        let l := folder ++ [name]
        if nameLimit < name.utf8ByteSize then .error .invalidFilename
        else if (t.get? l).isSome then .error .alreadyExists
        else .ok (t.set l .folder)
    else
      let _ ← t.findPieces p pieces
      .error .alreadyExists
  | none => if p.text.isEmpty then .error .notFound else .error .alreadyExists

/-- A folder is made under the last piece of its path, if that is a name and the other pieces lead
to a folder. -/
theorem createFolder_of_isName (t : FileTree) {p : Path} {init : List String} {name : String}
    (hpieces : piecesOf (withoutEndSlashes p).text.toList = init ++ [name])
    (hname : isName name = true) :
    t.createFolder p = (t.findPieces p (init ++ ["."])).bind fun
      | .vacant _ _ => .error .notFound
      | .entry folder =>
        if nameLimit < name.utf8ByteSize then .error .invalidFilename
        else if (t.get? (folder ++ [name])).isSome then .error .alreadyExists
        else .ok (t.set (folder ++ [name]) .folder) := by
  unfold createFolder
  dsimp only
  rw [hpieces, List.getLast?_concat, List.dropLast_concat]
  exact if_pos hname

/-- No folder is made where the last piece of a path is no name. -/
theorem createFolder_of_not_isName (t : FileTree) {p : Path} {init : List String} {name : String}
    (hpieces : piecesOf (withoutEndSlashes p).text.toList = init ++ [name])
    (hname : ¬ isName name = true) :
    t.createFolder p = (t.findPieces p (init ++ [name])).bind fun _ => .error .alreadyExists := by
  unfold createFolder
  dsimp only
  rw [hpieces, List.getLast?_concat]
  exact if_neg hname

/-- No folder is made for a path without pieces. -/
theorem createFolder_of_nil (t : FileTree) {p : Path}
    (hpieces : piecesOf (withoutEndSlashes p).text.toList = []) :
    t.createFolder p = .error (if p.text.isEmpty then .notFound else .alreadyExists) := by
  unfold createFolder
  dsimp only
  rw [hpieces, List.getLast?_nil]
  exact (apply_ite Except.error _ _ _).symm

/-- Makes a folder in the tree that making the folders above it gave. -/
def createFolderIn (p : Path) (t : FileTree) : FileTree × Option FileError :=
  match t.createFolder p with
  | .ok t => (t, none)
  | .error e => if t.isFolder p then (t, none) else (t, some e)

/-- Makes folders, given innermost first: the outer ones only if they are
missing.  What was made before an error stays. -/
def createChain (t : FileTree) : List Path → FileTree × Option FileError
  | [] => (t, some .notFound)
  | p :: outer =>
    if p.text.isEmpty then (t, none)
    else
      match t.createFolder p with
      | .ok t => (t, none)
      | .error .notFound =>
        match t.createChain outer with
        | (t, none) => createFolderIn p t
        | (t, some e) => (t, some e)
      | .error e => if t.isFolder p then (t, none) else (t, some e)

/-- The innermost folder of a chain. -/
theorem createChain_cons (t : FileTree) (p : Path) (outer : List Path) :
    t.createChain (p :: outer) =
      if p.text.isEmpty then (t, none)
      else
        match t.createFolder p with
        | .ok t => (t, none)
        | .error .notFound =>
          match t.createChain outer with
          | (t, none) => createFolderIn p t
          | (t, some e) => (t, some e)
        | .error e => if t.isFolder p then (t, none) else (t, some e) := rfl

/-- Makes a folder and the folders above it that are missing; nothing happens if
it exists. -/
def createFolders (t : FileTree) (p : Path) : FileTree × Option FileError :=
  t.createChain p.ancestors

/-- What lies in the folder that a path leads to, in the order of the names. -/
def list (t : FileTree) (p : Path) : Except FileError (List (String × Entry)) := do
  let l ← t.locate p
  match t.get? l with
  | some .folder => .ok (t.children l)
  | _ => .error .notADirectory

end FileTree
end ElementBuild
