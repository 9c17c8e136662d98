/-
# Differences of file trees

What a build did to the files is what the tree after it has and the tree before it
does not.
-/
import ElementBuild.FileTree.Basic

namespace ElementBuild

/-- The bytes of a content. -/
def Content.toBytes : Content → List UInt8
  | text s => s.toUTF8.toList
  | bytes bs => bs

namespace FileTree

/-- The entries that are new, or are not what they were before. -/
def changedSince (t before : FileTree) : List (Location × Entry) :=
  t.entries.filter fun x => before.get? x.1 ≠ some x.2

end FileTree
end ElementBuild
