/-
# File trees

A tree is a list of entries by their places, a place being the list of names that
leads to it from the root.  An entry is a folder, a file or a link, and every entry
but the root lies in a folder.  A tree also has a current folder, from which
relative paths start.

A file that holds UTF-8 is kept as text and any other as its bytes, so equal files
have equal contents.
-/
import ElementBuild.Path.Basic

namespace ElementBuild

/-- What a file holds. -/
inductive Content where
  | text (s : String)
  /-- Bytes that are not UTF-8. -/
  | bytes (bs : List UInt8)
  deriving DecidableEq, Repr

/-- The content with the given bytes. -/
def Content.ofBytes (bs : List UInt8) : Content :=
  match String.fromUTF8? (ByteArray.mk bs.toArray) with
  | some s => .text s
  | none => .bytes bs

/-- What stands at a place of a tree. -/
inductive Entry where
  | folder
  | file (content : Content)
  /-- A link to a path, which starts at the folder that holds the link. -/
  | link (target : String)
  deriving DecidableEq, Repr

/-- The names that lead from the root to an entry. -/
abbrev Location := List String

/-- The absolute path of a place. -/
def Location.path (l : Location) : Path := ⟨"/" ++ "/".intercalate l⟩

/-- A tree of files with a current folder. -/
structure FileTree where
  entries : List (Location × Entry) := []
  current : Location := []
  deriving Repr

namespace FileTree

/-- The entry at a place; the root is a folder. -/
def get? (t : FileTree) : Location → Option Entry
  | [] => some .folder
  | l => (t.entries.find? (·.1 == l)).map (·.2)

/-- Entries with one of them put in its place. -/
def setIn (l : Location) (e : Entry) : List (Location × Entry) → List (Location × Entry)
  | [] => [(l, e)]
  | x :: xs => if x.1 = l then (l, e) :: xs else x :: setIn l e xs

/-- The tree with an entry at a place. -/
def set (t : FileTree) (l : Location) (e : Entry) : FileTree :=
  { t with entries := setIn l e t.entries }

/-- The tree without a place and what lies below it. -/
def erase (t : FileTree) (l : Location) : FileTree :=
  { t with entries := t.entries.filter fun x => !l.isPrefixOf x.1 }

/-- The tree with a folder at each empty place on the way that names lead from a
place. -/
def withFolders (t : FileTree) (start : Location) : List String → FileTree
  | [] => t
  | name :: names =>
    let l := start ++ [name]
    (if (t.get? l).isSome then t else t.set l .folder).withFolders l names

/-- The tree with an entry at a place, in folders that are made as needed. -/
def place (t : FileTree) (l : Location) (e : Entry) : FileTree :=
  (t.withFolders [] l.dropLast).set l e

/-- Puts a name where it belongs among sorted names. -/
def insertName (x : String × Entry) : List (String × Entry) → List (String × Entry)
  | [] => [x]
  | y :: ys => if x.1 < y.1 then x :: y :: ys else y :: insertName x ys

/-- The name of an entry that lies directly in a folder. -/
def nameIn? (folder : Location) (l : Location) : Option String :=
  match folder.isPrefixOf? l with
  | some [name] => some name
  | _ => none

/-- What lies directly in a folder, in the order of the names. -/
def children (t : FileTree) (folder : Location) : List (String × Entry) :=
  (t.entries.filterMap fun x => (nameIn? folder x.1).map (·, x.2)).foldl
    (fun sorted x => insertName x sorted) []

end FileTree
end ElementBuild
