/-
# Confinement below a folder

What is copied has to stay below one folder.  `confine base target` is where a
target lands there: the way from the base to the target, with a folder `--` for
each `..` on it, followed from the base.  The result is a script, so it ends in
`.js`.
-/
import ElementBuild.Path.Relative

namespace ElementBuild
namespace Path

/-- The folder that stands for `..` below a base. -/
def parentSentinel : String := "--"

/-- One step below a base; a `.` is no step. -/
def confinedStep (p : Path) : Segment → Path
  | .parent => p.join ⟨parentSentinel⟩
  | .current => p
  | c => p.join ⟨c.text⟩

/-- A path with the extension of scripts; one that has another extension or none
gets it appended. -/
def asScript (p : Path) : Path := if p.extension? = some "js" then p else ⟨p.text ++ ".js"⟩

/-- The way from a base to a target, or the target where there is none. -/
def wayFrom (base target : Path) : Path :=
  (difference? target.normalize base.normalize).getD target.normalize

/-- Where a target lands below a base. -/
def confine (base target : Path) : Path :=
  ((wayFrom base target).segments.foldl confinedStep base).asScript

end Path
end ElementBuild
