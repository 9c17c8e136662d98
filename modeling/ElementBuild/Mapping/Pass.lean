/-
# Mapping the references of a module

Every reference that a rule applies to gets the destination of the rule, unless
its target is to be skipped: what an earlier pass has written is not mapped again.
The target of a component that is no longer one of the registered types is marked
as compiled.  Modules that a rule copies are copied on the way.
-/
import ElementBuild.Build.Copy
import ElementBuild.Mapping.Fallback
import ElementBuild.Reference.Mark

namespace ElementBuild
namespace Mapping

/-- What a mapping pass works with. -/
structure Pass where
  table : Table
  /-- The folder that rules are relative to. -/
  workingDir : Path
  /-- Whether modules are copied if their rule does not say. -/
  copyAll : Bool
  /-- The registered component types. -/
  types : List String
  deriving Repr

/-- The code after a pass, and the specifiers that the pass wrote. -/
structure Mapped where
  code : String
  destinations : List String
  deriving DecidableEq, Repr

namespace Pass

/-- Whether a specifier has the extension of a component type. -/
def isTyped (types : List String) (s : String) : Bool :=
  types.any fun type => (Target.dropSuffix? ('.' :: type.toList) s.toList).isSome

/-- What is written for a reference that becomes a destination. -/
def written (p : Pass) (r : Reference) (destination : String) : String :=
  if r.kind = .component ∧ !isTyped p.types destination then Reference.mark ++ destination
  else destination

/-- Copies the module of a rule. -/
def copyModule (p : Pass) (paths : List Path) (o : Outcome) (target : Path) : Step Unit := do
  let source ← resolveAlias o.aliased (paths ++ [p.workingDir])
  Step.during (.copyingMapped o.aliased) (copyScript source target target.folder)

/-- Handles one reference. -/
def mapReference (p : Pass) (folder : Path) (paths : List Path) (code : List Char)
    (state : Text.Draft × List String) (r : Reference) : Step (Text.Draft × List String) := do
  match p.table.resolve r.target folder p.workingDir p.copyAll with
  | none => return state
  | some o =>
    let (draft, destinations) := state
    let state ← match Reference.retarget? code r (p.written r o.destination) with
      | some edit => do
        let draft ← Step.edit draft edit
        pure (draft, o.destination :: destinations)
      | none => pure state
    match o.copyTo with
    | some target => p.copyModule paths o target
    | none => pure ()
    return state

/-- Maps the references of a module whose output lies in a folder. -/
def run (p : Pass) (code : String) (folder : Path) (paths : List Path) (skip : List String) :
    Step Mapped := do
  if p.table.isEmpty then return ⟨code, []⟩
  else
    let references ← Step.scan { types := p.types } code
    let (draft, destinations) ← (references.filter fun r => !skip.contains r.target).foldlM
      (p.mapReference folder paths code.toList) (Text.Draft.ofString code, [])
    return ⟨draft.toString, destinations⟩

end Pass
end Mapping
end ElementBuild
