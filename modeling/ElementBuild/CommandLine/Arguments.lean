/-
# Arguments of the command line

| setting | names | value | where |
| --- | --- | --- | --- |
| verbose | `-v`, `--verbose` | | everywhere |
| config | `-c`, `--config` | a path | everywhere |
| source | `-s`, `--source` | a path | `compile` |
| destination | `-d`, `--destination` | a path | `compile` |
| sourcemap | `--sourcemap` | | `compile` |
| address | `-p`, `--prefix` | a text | `compile` |
| all | `-a`, `--all` | | `compile` |
| help | `-h`, `--help` | | everywhere |
| version | `-V`, `--version` | | everywhere |

A value stands in the next argument, or after `=`, or right after a short name.
Short names without values may share a dash.  No setting is given twice, paths are
not empty, and after `--` there are no settings.  What is given everywhere may be
given before and after `compile`; the later value counts.
-/

namespace ElementBuild
namespace CommandLine

/-- What an argument sets. -/
inductive Setting where
  | verbose
  | config
  | source
  | destination
  | sourcemap
  | address
  | all
  | help
  | version
  deriving DecidableEq, Repr

namespace Setting

/-- Whether a value belongs to a setting. -/
def takesValue : Setting → Bool
  | config => true
  | source => true
  | destination => true
  | address => true
  | _ => false

/-- Whether the value of a setting is a path. -/
def isPath (s : Setting) : Bool := s.takesValue && s != address

/-- The settings that are known before `compile`. -/
def everywhere : List Setting := [verbose, config, help, version]

/-- The settings that are known after `compile`. -/
def ofCompile : List Setting := everywhere ++ [source, destination, sourcemap, address, all]

/-- The long name of a setting. -/
def long : Setting → String
  | verbose => "verbose"
  | config => "config"
  | source => "source"
  | destination => "destination"
  | sourcemap => "sourcemap"
  | address => "prefix"
  | all => "all"
  | help => "help"
  | version => "version"

/-- The short name of a setting. -/
def short? : Setting → Option Char
  | verbose => some 'v'
  | config => some 'c'
  | source => some 's'
  | destination => some 'd'
  | sourcemap => none
  | address => some 'p'
  | all => some 'a'
  | help => some 'h'
  | version => some 'V'

end Setting

/-- Why arguments are not taken. -/
inductive UsageError where
  | displayHelp
  | displayVersion
  /-- Nothing was asked for. -/
  | nothingGiven
  | missingSubcommand
  | missingRequired
  | unknownArgument
  | invalidSubcommand
  | invalidValue
  /-- A setting is given twice. -/
  | repeated
  | tooManyValues
  deriving DecidableEq, Repr

/-- The arguments read so far at one level. -/
structure Level where
  known : List Setting
  given : List (Setting × String) := []
  /-- The last setting whose value stands in an argument of its own, and the value
  if it was read; it is looked at when the next setting comes. -/
  pending : Option (Setting × Option String) := none
  deriving Repr

namespace Level

/-- The value of a setting. -/
def value? (l : Level) (s : Setting) : Option String :=
  (l.given.find? (·.1 == s)).map (·.2)

/-- Whether the next argument is a value. -/
def awaitsValue (l : Level) : Bool :=
  match l.pending with
  | some (_, none) => true
  | _ => false

/-- Records the value of a setting. -/
def record (l : Level) (s : Setting) (value : String) : Except UsageError Level :=
  if (l.value? s).isSome then .error .repeated
  else if s.isPath && value.isEmpty then .error .invalidValue
  else .ok { l with given := (s, value) :: l.given }

/-- Records the setting that is pending; it has to have a value by now. -/
def settle (l : Level) : Except UsageError Level :=
  match l.pending with
  | none => .ok l
  | some (_, none) => .error .invalidValue
  | some (s, some value) => { l with pending := none }.record s value

/-- Records a value that is attached to the name of its setting. -/
def give (l : Level) (s : Setting) (value : String) : Except UsageError Level := do
  let l ← l.settle
  l.record s value

/-- Sets a setting without value. -/
def raise (l : Level) (s : Setting) : Except UsageError Level := do
  let l ← l.settle
  match s with
  | .help => .error .displayHelp
  | .version => .error .displayVersion
  | s => l.record s "true"

/-- A setting whose value is to come. -/
def await (l : Level) (s : Setting) : Except UsageError Level := do
  let l ← l.settle
  return { l with pending := some (s, none) }

/-- A value, if one is attached to the name of its setting. -/
def attach (l : Level) (s : Setting) : Option String → Except UsageError Level
  | some value => l.give s value
  | none => l.await s

/-- An argument with a long name, cut at the first `=`. -/
def readLong (l : Level) (text : List Char) : Except UsageError Level :=
  let (name, value) := match text.span (· ≠ '=') with
    | (name, _ :: value) => (name, some (String.ofList value))
    | (name, []) => (name, none)
  match l.known.find? (·.long == String.ofList name) with
  | none => .error .unknownArgument
  | some s =>
    if s.takesValue then l.attach s value
    else if value.isSome then .error .tooManyValues
    else l.raise s

/-- An argument with short names. -/
def readShort (l : Level) : List Char → Except UsageError Level
  | [] => .ok l
  | c :: cs =>
    match l.known.find? (·.short? == some c) with
    | none => .error .unknownArgument
    | some s =>
      if s.takesValue then
        l.attach s (match cs with
          | [] => none
          | '=' :: value => some (String.ofList value)
          | value => some (String.ofList value))
      else
        match l.raise s with
        | .ok l => l.readShort cs
        | .error e => .error e

end Level

/-- What an argument looks like. -/
inductive Shape where
  | escape
  | long (text : List Char)
  | short (text : List Char)
  | word
  deriving DecidableEq, Repr

/-- What an argument looks like. -/
def Shape.of (argument : String) : Shape :=
  match argument.toList with
  | ['-', '-'] => escape
  | '-' :: '-' :: cs => long cs
  | '-' :: c :: cs => short (c :: cs)
  | _ => word

/-- One argument of a level, other than `--` and the name of a subcommand; `stray`
is the error about a word that is no value. -/
def Level.read (l : Level) (stray : UsageError) (argument : String) : Except UsageError Level :=
  match Shape.of argument with
  | .long text => l.readLong text
  | .short text => l.readShort text
  | _ =>
    match l.pending with
    | some (s, none) => .ok { l with pending := some (s, some argument) }
    | _ => .error stray

/-- The arguments after `compile`. -/
def readCompile (l : Level) : List String → Except UsageError Level
  | [] => l.settle
  | a :: rest =>
    if Shape.of a = .escape then
      if rest.isEmpty then l.settle else .error .unknownArgument
    else
      match l.read .unknownArgument a with
      | .ok l => readCompile l rest
      | .error e => .error e

/-- The subcommands that help is asked for. -/
def readHelp : List String → UsageError
  | [] => .displayHelp
  | ["compile"] => .displayHelp
  | ["help"] => .displayHelp
  | _ => .invalidSubcommand

/-- What to compile, and how. -/
structure CompileArguments where
  verbose : Bool
  config : Option String
  source : String
  destination : String
  sourcemap : Bool
  address : Option String
  all : Bool
  deriving DecidableEq, Repr

/-- Refuses a level without the settings that have to be given. -/
def requireBoth (inner : Level) : Except UsageError (String × String) :=
  match inner.value? .source, inner.value? .destination with
  | some source, some destination => .ok (source, destination)
  | _, _ => .error .missingRequired

/-- The arguments of both levels together. -/
def combine (outer inner : Level) (source destination : String) : CompileArguments where
  verbose := (inner.value? .verbose <|> outer.value? .verbose).isSome
  config := inner.value? .config <|> outer.value? .config
  source := source
  destination := destination
  sourcemap := (inner.value? .sourcemap).isSome
  address := inner.value? .address
  all := (inner.value? .all).isSome

/-- What is wrong when the arguments end before a subcommand. -/
def endOfArguments (l : Level) : UsageError :=
  match l.settle with
  | .error e => e
  | .ok l => if l.given.isEmpty then .nothingGiven else .missingSubcommand

/-- The arguments from the first on. -/
def readFrom (l : Level) : List String → Except UsageError CompileArguments
  | [] => .error (endOfArguments l)
  | a :: rest =>
    if !l.awaitsValue && a == "compile" then do
      let inner ← readCompile { known := Setting.ofCompile } rest
      let (source, destination) ← requireBoth inner
      let outer ← l.settle
      return combine outer inner source destination
    else if !l.awaitsValue && a == "help" then .error (readHelp rest)
    else if Shape.of a = .escape then
      match rest with
      | [] => .error (endOfArguments l)
      | next :: _ =>
        .error (if next = "compile" ∨ next = "help" then .unknownArgument else .invalidSubcommand)
    else
      match l.read .invalidSubcommand a with
      | .ok l => readFrom l rest
      | .error e => .error e

/-- Reads the arguments of the command line. -/
def read (arguments : List String) : Except UsageError CompileArguments :=
  readFrom { known := Setting.everywhere } arguments

end CommandLine
end ElementBuild
