/-
# Mapping tables

The first rule whose key applies to a target decides.  What a rule says is taken
relative to the working folder if it opens with `./` or `../`, and written relative
to the folder of the importing module; anything else is a bare specifier and stays
what it is.
-/
import ElementBuild.Mapping.Key
import ElementBuild.Mapping.Rule
import ElementBuild.Path.Relative

namespace ElementBuild
namespace Mapping

/-- What becomes of a target. -/
structure Outcome where
  /-- The specifier under which the module is found. -/
  aliased : String
  /-- The specifier that is written. -/
  destination : String
  /-- Where the module is copied to, if it is. -/
  copyTo : Option Path
  deriving DecidableEq, Repr

/-- Whether a specifier opens with `./` or `../`. -/
def opensRelative (s : String) : Bool :=
  "./".toList.isPrefixOf s.toList || "../".toList.isPrefixOf s.toList

/-- A specifier of the working folder seen from another folder. -/
def relativize (folder workingDir : Path) (s : String) : String :=
  if opensRelative s then (Path.specifierFrom? folder (workingDir.join ⟨s⟩)).getD s else s

/-- A mapping table. -/
structure Table where
  rules : List (Key × Rule) := []
  deriving Repr

/-- A pattern key that is malformed. -/
structure BadKey where
  key : String
  deriving DecidableEq, Repr

/-- What is wrong with a key. -/
def BadKey.message (e : BadKey) : String := "invalid modules mapping pattern " ++ e.key

namespace Table

/-- The table with the given keys and rules. -/
def ofEntries : List (String × Rule) → Except BadKey Table
  | [] => .ok {}
  | (key, rule) :: entries =>
    match Key.ofText? key with
    | none => .error ⟨key⟩
    | some k => (ofEntries entries).map fun t => ⟨(k, rule) :: t.rules⟩

/-- Whether a table has no rules. -/
def isEmpty (t : Table) : Bool := t.rules.isEmpty

/-- The rule that decides about a target. -/
def rule? (t : Table) (target : String) : Option (Key × Rule) :=
  t.rules.find? fun r => r.1.matchesTarget target

/-- The alias that a rule gives a target, and the same as it is written if there
is no destination. -/
def aliasOf (relative : String → String) (target : String) (aliased : Option String) :
    Key → String × String
  | .literal s =>
    let aliased := aliased.getD s
    (aliased, relative aliased)
  | k@(.pattern _) =>
    match aliased with
    | some template =>
      let aliased := k.substitute target template
      (aliased, relative aliased)
    | none => (target, target)

/-- What becomes of a target; nothing if no key applies. -/
def resolve (t : Table) (target : String) (folder workingDir : Path) (copyAll : Bool) :
    Option Outcome :=
  (t.rule? target).map fun (key, rule) =>
    let relative := relativize folder workingDir
    let (aliased, configured, destination, copies) := match rule with
      | .replace template =>
        let mapped := key.substitute target template
        (mapped, mapped, relative mapped, copyAll)
      | .detailed aliased destination copies =>
        let (aliased, written) := aliasOf relative target aliased key
        let copies := copies.getD copyAll
        match destination with
        | some template =>
          let configured := key.substitute target template
          (aliased, configured, relative configured, copies)
        | none => (aliased, aliased, written, copies)
    { aliased, destination
      copyTo := if copies then some (workingDir.join ⟨configured⟩).normalize else none }

end Table
end Mapping
end ElementBuild
