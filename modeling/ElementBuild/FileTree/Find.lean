/-
# Following paths

A path is followed name by name.  Each piece but the last has to lead to a folder,
`..` goes to the folder above, and a link is followed at once: the pieces of its
target take its place.  No path goes through more than forty links.

| a path that | fails with |
| --- | --- |
| leads through an empty place | `notFound` |
| leads through a file, or ends in a slash after one | `notADirectory` |
| goes through too many links | `filesystemLoop` |
| has a name of more than 255 bytes, or more than 4095 bytes in all | `invalidFilename` |
| has a null character | `invalidInput` |
-/
import ElementBuild.FileTree.Basic

namespace ElementBuild

/-- Why an operation on files fails. -/
inductive FileError where
  | notFound
  | notADirectory
  | isADirectory
  | alreadyExists
  | invalidInput
  | invalidData
  | filesystemLoop
  | invalidFilename
  deriving DecidableEq, Repr

/-- How an error is called. -/
def FileError.name : FileError → String
  | notFound => "NotFound"
  | notADirectory => "NotADirectory"
  | isADirectory => "IsADirectory"
  | alreadyExists => "AlreadyExists"
  | invalidInput => "InvalidInput"
  | invalidData => "InvalidData"
  | filesystemLoop => "FilesystemLoop"
  | invalidFilename => "InvalidFilename"

namespace FileTree

/-- Where a path leads: to an entry, or to an empty place in a folder. -/
inductive Found where
  | entry (l : Location)
  | vacant (folder : Location) (name : String)
  deriving DecidableEq, Repr

/-- The pieces of a path; a slash at the end counts as a `.`, which only folders
have. -/
def piecesOf (text : List Char) : List String :=
  let pieces := ((Path.pieces text).filter (· ≠ [])).map String.ofList
  if text.getLast? = some '/' then pieces ++ ["."] else pieces

/-- The longest name, in bytes. -/
def nameLimit : Nat := 255

/-- The longest path, in bytes. -/
def pathLimit : Nat := 4095

/-- Follows pieces from a folder; `follow` goes on at a link. -/
def walk (t : FileTree) (follow : Location → List String → Except FileError Found) :
    Location → List String → Except FileError Found
  | l, [] => .ok (.entry l)
  | l, piece :: rest =>
    if piece = "." then t.walk follow l rest
    else if piece = ".." then t.walk follow l.dropLast rest
    else if nameLimit < piece.utf8ByteSize then .error .invalidFilename
    else
      match t.get? (l ++ [piece]) with
      | none => if rest.isEmpty then .ok (.vacant l piece) else .error .notFound
      | some .folder => t.walk follow (l ++ [piece]) rest
      | some (.file _) =>
        if rest.isEmpty then .ok (.entry (l ++ [piece])) else .error .notADirectory
      | some (.link target) =>
        if target.isEmpty then .error .notFound
        else follow (if target.toList.head? = some '/' then [] else l) (piecesOf target.toList ++ rest)

/-- One step of a walk. -/
theorem walk_cons (t : FileTree) (follow : Location → List String → Except FileError Found)
    (l : Location) (piece : String) (rest : List String) :
    t.walk follow l (piece :: rest) =
      if piece = "." then t.walk follow l rest
      else if piece = ".." then t.walk follow l.dropLast rest
      else if nameLimit < piece.utf8ByteSize then .error .invalidFilename
      else
        match t.get? (l ++ [piece]) with
        | none => if rest.isEmpty then .ok (.vacant l piece) else .error .notFound
        | some .folder => t.walk follow (l ++ [piece]) rest
        | some (.file _) =>
          if rest.isEmpty then .ok (.entry (l ++ [piece])) else .error .notADirectory
        | some (.link target) =>
          if target.isEmpty then .error .notFound
          else follow (if target.toList.head? = some '/' then [] else l)
            (piecesOf target.toList ++ rest) := rfl

/-- Follows pieces through a number of links at most. -/
def walkLinks (t : FileTree) : Nat → Location → List String → Except FileError Found
  | 0 => t.walk fun _ _ => .error .filesystemLoop
  | n + 1 => t.walk (t.walkLinks n)

/-- The most links that a path goes through. -/
def linkLimit : Nat := 40

/-- Where the pieces of a path lead, from the root or from the current folder. -/
def findPieces (t : FileTree) (p : Path) (pieces : List String) : Except FileError Found :=
  if p.text.isEmpty then .error .notFound
  else if p.text.toList.contains '\x00' then .error .invalidInput
  else if pathLimit < p.text.utf8ByteSize then .error .invalidFilename
  else t.walkLinks linkLimit (if p.isAbsolute then [] else t.current) pieces

/-- Where a path leads. -/
def find (t : FileTree) (p : Path) : Except FileError Found :=
  t.findPieces p (piecesOf p.text.toList)

/-- The place that a path leads to, if there is something. -/
def locate (t : FileTree) (p : Path) : Except FileError Location :=
  match t.find p with
  | .ok (.entry l) => .ok l
  | .ok (.vacant _ _) => .error .notFound
  | .error e => .error e

/-- The entry that a path leads to. -/
def entryAt? (t : FileTree) (p : Path) : Option Entry := (t.locate p).toOption.bind t.get?

/-- Whether a path leads to a file. -/
def isFile (t : FileTree) (p : Path) : Bool :=
  match t.entryAt? p with
  | some (.file _) => true
  | _ => false

/-- Whether a path leads to a folder. -/
def isFolder (t : FileTree) (p : Path) : Bool :=
  match t.entryAt? p with
  | some .folder => true
  | _ => false

/-- The one path of what a path leads to that has no links and no `..`. -/
def canonical (t : FileTree) (p : Path) : Except FileError Path := do
  let q := (← t.locate p).path
  if pathLimit < q.text.utf8ByteSize then .error .invalidFilename else .ok q

end FileTree
end ElementBuild
