/-
# The command

The files that a build may look at are read first; the build then runs on them
without touching the disk, and what it changed is written back, also if it fails.
-/
import ElementBuild.CommandLine.Execute
import ElementBuild.CommandLine.Report
import ElementBuild.FileTree.Difference
import ElementBuild.Path.Normal

namespace ElementBuild
namespace CommandLine

/-- Adds what lies at a place of the disk, and below it, to entries; what cannot be
read is left out. -/
partial def readPlace (entries : Array (Location × Entry)) (l : Location) :
    IO (Array (Location × Entry)) := do
  let place := (← IO.currentDir) / l.path.text
  match (← place.symlinkMetadata.toBaseIO) with
  | .error _ => return entries
  | .ok m =>
    match m.type with
    | .dir =>
      let names := ((← place.readDir.toBaseIO).toOption.getD #[]).map (·.fileName)
      names.foldlM (fun entries name => readPlace entries (l ++ [name]))
        (entries.push (l, .folder))
    | .symlink =>
      match (← (IO.FS.realPath place).toBaseIO) with
      | .ok target => return entries.push (l, .link target.toString)
      | .error _ => return entries
    | _ =>
      match (← (IO.FS.readBinFile place).toBaseIO) with
      | .ok bytes => return entries.push (l, .file (.ofBytes bytes.toList))
      | .error _ => return entries

/-- The location of an absolute path. -/
def locationOf (p : Path) : Location := p.normalize.segments.filterMap Segment.name?

/-- The locations that are not below another one. -/
def outermost (ls : List Location) : List Location :=
  let ls := ls.eraseDups
  ls.filter fun l => !ls.any fun k => k ≠ l && k.isPrefixOf l

/-- The files that a build may look at. -/
def readFiles (a : CompileArguments) (current : Location) : IO FileTree := do
  let places := outermost ((a.places current.path).map locationOf)
  let entries ← places.foldlM readPlace #[]
  let tree : FileTree := { entries := entries.toList, current }
  return places.foldl (fun t l => t.withFolders [] l.dropLast) tree

/-- Writes what a build changed. -/
def writeFiles (before after : FileTree) : IO Unit := do
  let here ← IO.currentDir
  for (l, e) in after.changedSince before do
    match e with
    | .folder => IO.FS.createDirAll (here / l.path.text)
    | .file content =>
      IO.FS.writeBinFile (here / l.path.text) (ByteArray.mk content.toBytes.toArray)
    | .link _ => continue

/-- Runs a build that was asked for, and gives the status of the program. -/
def runBuild (a : CompileArguments) : IO UInt32 := do
  let start ← IO.monoNanosNow
  let errors ← IO.getStderr
  let current := locationOf ⟨(← IO.currentDir).toString⟩
  let before ← readFiles a current
  let (outcome, after) := StateT.run (ExceptT.run (execute a)) { files := before }
  writeFiles before after.files
  for record in after.log do
    IO.println record.line
  errors.putStr after.printed
  match outcome with
  | .ok bundles =>
    let nanos := (← IO.monoNanosNow) - start
    let elapsed := Text.durationText ⟨nanos / 1000000000, nanos % 1000000000⟩
    errors.putStr (summary bundles elapsed)
    return 0
  | .error f =>
    errors.putStrLn f.report
    return 1

/-- Runs the command with its arguments. -/
def run (arguments : List String) : IO UInt32 :=
  match read arguments with
  | .ok a => runBuild a
  | .error e => do
    if e.status = 0 then IO.println e.message else IO.eprintln e.message
    return e.status.toUInt32

end CommandLine
end ElementBuild

/-- The command line. -/
def main (arguments : List String) : IO UInt32 := ElementBuild.CommandLine.run arguments
