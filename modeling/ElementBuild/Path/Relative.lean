/-
# Relative paths and specifiers

`relativeTo?` leads from one folder to a path: after their common beginning, one
`..` for each segment that is left of the folder, then what is left of the
path.  No such path exists once a `..` of the folder would have to be undone.
`specifierFrom?` is the same as a module specifier, which opens with a dot.
-/
import ElementBuild.Path.Normal

namespace ElementBuild
namespace Path

/-- Segments that lead from `base` to `target`, when they have parted. -/
def stepsApart : List Segment → List Segment → Option (List Segment)
  | target, [] => some target
  | [], base => some (List.replicate base.length .parent)
  | t :: target, .current :: base => (stepsApart target base).map (t :: ·)
  | _, .parent :: _ => none
  | target, base => some (List.replicate base.length .parent ++ target)

/-- Segments that lead from `base` to `target`. -/
def steps : List Segment → List Segment → Option (List Segment)
  | t :: target, b :: base => if t = b then steps target base else stepsApart (t :: target) (b :: base)
  | target, base => stepsApart target base

/-- The way from one path to another, both taken as they are. -/
def difference? (target base : Path) : Option Path :=
  if target.isAbsolute = base.isAbsolute then
    (steps target.segments base.segments).map ofSegments
  else if target.isAbsolute then some target
  else none

/-- A path with single slashes between its segments. -/
def slashed (p : Path) : String := textOf p.segments

/-- The path that leads from a folder to a target, both cleaned first. -/
def relativeTo? (source target : Path) : Option String :=
  (difference? target.normalize source.normalize).map slashed

/-- A relative path that opens with a dot, so that it reads as a path and not
as the name of a package. -/
def dotted (relative : String) : String :=
  if relative.toList.head? = some '.' then relative else "./" ++ relative

/-- The module specifier of a target seen from a folder. -/
def specifierFrom? (source target : Path) : Option String :=
  (relativeTo? source target).map dotted

end Path
end ElementBuild
