/-
# Failures

A failure is a fault and what was being done when it came up, the widest activity
first.  Its *chain* tells the same from the outside in: the activities, the fault,
and what caused the fault.  A link of the chain is a text of this library, or stands
for an error of the world outside, whose wording is not fixed here.
-/
import ElementBuild.FileTree.Find
import ElementBuild.Mapping.Table
import ElementBuild.Plugin.Fault
import ElementBuild.Reference.Scan
import ElementBuild.Resolution.Resolve
import ElementBuild.Text.Splice

namespace ElementBuild

/-- What was being done. -/
inductive Activity where
  | reading (p : Path)
  | parsing (p : Path)
  | creatingFolder (p : Path)
  | writing (p : Path)
  | copying (source target : Path)
  | copyingMapped (aliased : String)
  | readingFolder (p : Path)
  | resolvingEntry (p : Path)
  | compiling (p : Path)
  | resolvingImports (p : Path)
  | minifying (p : Path)
  | readingConfig (p : Path)
  | runningCompiler (command : String)
  | decodingOutput (command : String)
  deriving DecidableEq, Repr

/-- What an activity is called when it fails. -/
def Activity.message : Activity → String
  | reading p => "Failed to read " ++ p.text
  | parsing p => "Failed to parse " ++ p.text
  | creatingFolder p => "Failed to create directory " ++ p.text
  | writing p => "Failed to write " ++ p.text
  | copying source target => "Failed to copy " ++ source.text ++ " to " ++ target.text
  | copyingMapped aliased => "Failed to copy mapped module " ++ aliased
  | readingFolder p => "Failed to read directory " ++ p.text
  | resolvingEntry p => "Failed to resolve " ++ p.text
  | compiling p => "Failed to compile " ++ p.text
  | resolvingImports p => "Failed to resolve imports of " ++ p.text
  | minifying p => "Failed to minify " ++ p.text
  | readingConfig p => "Failed to read config file: " ++ p.text
  | runningCompiler command => "Failed to run compiler '" ++ command ++ "'"
  | decodingOutput command => "Compiler '" ++ command ++ "' printed invalid UTF-8"

/-- An error of the world outside. -/
inductive Outside where
  | file (e : FileError)
  | toml
  | json
  | pattern
  | encoding
  deriving DecidableEq, Repr

/-- What went wrong. -/
inductive Fault where
  | outside (e : Outside)
  | malformed (f : SyntaxFault)
  | splice (e : Text.SpliceError)
  | resolve (e : ResolveError)
  | mapping (e : Mapping.BadKey)
  | plugin (e : PluginFault)
  | stated (text : String)
  /-- The work has gone deeper than anything sensible. -/
  | endless
  deriving DecidableEq, Repr

/-- A link of a chain. -/
inductive Link where
  | said (text : String)
  | outside (e : Outside)
  deriving DecidableEq, Repr

/-- The kinds of faults that are told apart. -/
inductive FaultKind where
  | malformed
  | invertedRange
  | outOfBounds
  | notCharBoundary
  | notFound
  | manifest
  | unreadable
  | invalidPattern
  | plugin (e : PluginFault)
  | file
  | toml
  | json
  | other
  deriving DecidableEq, Repr

namespace Fault

/-- The kind of a fault. -/
def kind : Fault → FaultKind
  | outside (.file _) => .file
  | outside .toml => .toml
  | outside .json => .json
  | outside _ => .other
  | malformed _ => .malformed
  | splice (.invertedRange ..) => .invertedRange
  | splice (.outOfBounds ..) => .outOfBounds
  | splice (.notCharBoundary ..) => .notCharBoundary
  | resolve (.notFound _) => .notFound
  | resolve (.badManifest _) => .manifest
  | resolve (.unreadable ..) => .unreadable
  | mapping _ => .invalidPattern
  | plugin e => .plugin e
  | stated _ => .other
  | endless => .other

/-- The fault and its causes. -/
def chain : Fault → List Link
  | outside e => [.outside e]
  | malformed f => [.said f.text, .said f.brief]
  | splice e => [.said e.message]
  | resolve (.notFound s) => [.said (ResolveError.notFound s).message]
  | resolve (.badManifest p) => [.said (ResolveError.badManifest p).message, .outside .json]
  | resolve (.unreadable p e) =>
    [.said (ResolveError.unreadable p e).message, .outside (.file e)]
  | mapping e => [.said e.message, .outside .pattern]
  | plugin e => [.said e.message]
  | stated text => [.said text]
  | endless => [.said "the build does not come to an end"]

end Fault

/-- A fault, and what was being done when it came up. -/
structure Failure where
  activities : List Activity
  fault : Fault
  deriving DecidableEq, Repr

namespace Failure

/-- A fault by itself. -/
def of (f : Fault) : Failure := ⟨[], f⟩

/-- A failure in the course of a wider activity. -/
def during (a : Activity) (f : Failure) : Failure := { f with activities := a :: f.activities }

/-- The failure from the outside in. -/
def chain (f : Failure) : List Link :=
  f.activities.map (fun a => .said a.message) ++ f.fault.chain

end Failure
end ElementBuild
