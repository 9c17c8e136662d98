/-
# Normal form of paths

`normalize` reads a path from left to right on a stack: a `.` is dropped and a
`..` takes the segment below it away, whatever that is, except for the root.
Where there is nothing to take away the `..` is kept, so a second one takes it
away again.
-/
import ElementBuild.Path.Basic

namespace ElementBuild
namespace Path

/-- One step of cleaning, on the segments read so far, last first. -/
def cleanStep (stack : List Segment) : Segment → List Segment
  | .current => stack
  | .parent =>
    match stack with
    | [] => [.parent]
    | .root :: below => .parent :: .root :: below
    | _ :: below => below
  | c => c :: stack

/-- The segments without `.` and with each `..` resolved. -/
def clean (cs : List Segment) : List Segment := (cs.foldl cleanStep []).reverse

/-- The lexically cleaned path. -/
def normalize (p : Path) : Path := ofSegments (clean p.segments)

/-- The clean absolute path seen from a current folder. -/
def absolutize (current p : Path) : Path :=
  if p.isAbsolute then p.normalize else (current.join p).normalize

end Path
end ElementBuild
