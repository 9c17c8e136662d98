/-
# Build sessions

A build works on a session: the files, what was copied and compiled already, what
was written, what happened to components and references, and what there is to tell.
A step changes the session and ends with a result or a failure; what it changed
before a failure stays changed.

Sources and destinations are the same if the segments of their paths are.
-/
import ElementBuild.Build.Failure
import ElementBuild.Path.Relative

namespace ElementBuild

/-- Something that a build tells. -/
inductive LogRecord where
  | info (text : String)
  | warning (text : String)
  deriving DecidableEq, Repr

/-- The pairs of a file and a destination that were claimed, the latest first. -/
structure CopyCache where
  pairs : List (Path × Path) := []
  deriving DecidableEq, Repr

namespace CopyCache

/-- Whether a pair was claimed. -/
def has (c : CopyCache) (source destination : Path) : Bool :=
  c.pairs.any fun p => p.1.same source && p.2.same destination

/-- Claims a pair, and says whether it was free. -/
def claim (c : CopyCache) (source destination : Path) : Bool × CopyCache :=
  if c.has source destination then (false, c) else (true, ⟨(source, destination) :: c.pairs⟩)

end CopyCache

/-- The destinations of the components that were compiled or are being
compiled. -/
structure BuildCache where
  entries : List (Path × Path) := []
  deriving DecidableEq, Repr

namespace BuildCache

/-- The destination of a component. -/
def get? (c : BuildCache) (source : Path) : Option Path :=
  (c.entries.find? fun e => e.1.same source).map (·.2)

/-- Records a destination; one that was there gives way. -/
def register (c : BuildCache) (source destination : Path) : BuildCache :=
  ⟨(source, destination) :: c.entries.filter fun e => !e.1.same source⟩

/-- Forgets a component. -/
def evict (c : BuildCache) (source : Path) : BuildCache :=
  ⟨c.entries.filter fun e => !e.1.same source⟩

end BuildCache

/-- A module that was written. -/
structure Bundle where
  output : Path
  /-- Its size in bytes. -/
  size : Nat
  sourcemap : Option Path
  deriving DecidableEq, Repr

/-- A file that was written, and the file that it was made from. -/
structure Delivery where
  source : Path
  target : Path
  deriving DecidableEq, Repr

/-- A reference to a relative script that was copied. -/
structure Followed where
  /-- The folder of the script that refers to it. -/
  folder : Path
  /-- The folder of the copy of that script. -/
  copied : Path
  target : String
  /-- The script that the reference leads to. -/
  found : Path
  /-- Where its copy lands. -/
  landing : Path
  deriving DecidableEq, Repr

/-- A reference of a module to a component. -/
structure ComponentLink where
  /-- The folder of the module that refers to it. -/
  output : Path
  target : String
  /-- The file that the reference leads to. -/
  entry : Path
  /-- The destination that is recorded for that file. -/
  destination : Path
  /-- The component was compiled for this reference. -/
  isFirst : Bool
  deriving DecidableEq, Repr

/-- The specifier of a component, seen from the module that refers to it. -/
def ComponentLink.specifier (l : ComponentLink) : String :=
  (Path.specifierFrom? l.output l.destination).getD l.destination.text

/-- A relative reference that was written anew, to lead to its file. -/
structure Pointed where
  /-- The folder of the module that refers to it. -/
  output : Path
  target : String
  found : Path
  specifier : String
  deriving DecidableEq, Repr

/-- What happens to components and references in the course of a build. -/
inductive Event where
  /-- The destination of a component is recorded, and the component is about to be
  compiled; it is given by the file that leads to it. -/
  | begun (entry : Path)
  /-- A component is entered, given by its folder and its entry file. -/
  | entered (source entry : Path)
  | followed (f : Followed)
  | linked (l : ComponentLink)
  | pointed (p : Pointed)
  deriving DecidableEq, Repr

/-- The state of a build. -/
structure Session where
  files : FileTree
  copies : CopyCache := {}
  builds : BuildCache := {}
  /-- The modules written so far. -/
  bundles : List Bundle := []
  /-- All files written so far. -/
  deliveries : List Delivery := []
  /-- What happened so far. -/
  events : List Event := []
  /-- The specifiers that mapping wrote into the component that is being
  compiled. -/
  mapped : List String := []
  log : List LogRecord := []
  /-- What was printed so far. -/
  printed : String := ""
  deriving Repr

/-- The session as a build finds it that starts from these files. -/
def Session.restart (s : Session) : Session := { files := s.files, log := s.log, printed := s.printed }

/-- The session once the destination of a component is recorded. -/
def Session.begin (s : Session) (entry destination : Path) : Session :=
  { s with builds := s.builds.register entry destination, events := s.events ++ [.begun entry] }

/-- A step of a build. -/
abbrev Step (α : Type) := ExceptT Failure (StateM Session) α

namespace Step

/-- Fails. -/
def fail {α : Type} (f : Fault) : Step α := throw (.of f)

/-- A step in the course of a wider activity. -/
def during {α : Type} (a : Activity) (x : Step α) : Step α :=
  ExceptT.mk do return (← x.run).mapError (Failure.during a)

/-- A result that was computed without the session. -/
def ofExcept {ε α : Type} (fault : ε → Fault) : Except ε α → Step α
  | .ok a => return a
  | .error e => fail (fault e)

/-- The files. -/
def files : Step FileTree := return (← get).files

/-- Something computed from the files. -/
def fromFiles {α : Type} (f : FileTree → Except FileError α) : Step α := do
  ofExcept (.outside ∘ .file) (f (← files))

/-- Tells something. -/
def tell (r : LogRecord) : Step Unit := modify fun s => { s with log := s.log ++ [r] }

/-- Prints a text. -/
def print (text : String) : Step Unit := modify fun s => { s with printed := s.printed ++ text }

/-- Reads the text of a file. -/
def read (p : Path) : Step String := fromFiles (·.readText p)

/-- Makes a folder and the folders above it that are missing. -/
def createFolders (p : Path) : Step Unit := do
  let (t, e) := (← files).createFolders p
  modify fun s => { s with files := t }
  match e with
  | some e => fail (.outside (.file e))
  | none => return

/-- Changes the files by making a file out of another. -/
def deliver (source target : Path) (change : FileTree → Except FileError FileTree) : Step Unit := do
  let t ← fromFiles change
  modify fun s => { s with files := t, deliveries := s.deliveries ++ [⟨source, target⟩] }

/-- Writes a file that was made from another. -/
def write (source target : Path) (text : String) : Step Unit :=
  deliver source target (·.write target (.text text))

/-- Takes note of an event. -/
def trace (e : Event) : Step Unit := modify fun s => { s with events := s.events ++ [e] }

/-- Claims a pair of a file and a destination, and says whether it was free. -/
def claim (source destination : Path) : Step Bool := do
  let (free, copies) := (← get).copies.claim source destination
  modify fun s => { s with copies }
  return free

/-- Compiles a component.  Its destination is recorded before, so that a component on the
way back to itself finds it, and forgotten if the component fails. -/
def attempt (entry destination : Path) (x : Step Unit) : Step Unit := do
  modify fun s => s.begin entry destination
  tryCatch x fun f => do
    modify fun s => { s with builds := s.builds.evict entry }
    throw f

/-- Scans a module, and tells the warnings about it. -/
def scan (options : ScanOptions) (code : String) : Step (List Reference) := do
  let s ← ofExcept .malformed (ElementBuild.scan options code)
  s.warnings.forM fun w => tell (.warning w)
  return s.references

/-- Records a module that was written. -/
def record (b : Bundle) : Step Unit := modify fun s => { s with bundles := s.bundles ++ [b] }

/-- Resolves a specifier. -/
def resolve (specifier : String) (paths : List Path) : Step Path := do
  ofExcept .resolve ((← files).resolve specifier paths)

/-- Makes an edit in a draft. -/
def edit (d : Text.Draft) (e : Text.Edit) : Step Text.Draft := ofExcept .splice (d.edit e)

end Step
end ElementBuild
