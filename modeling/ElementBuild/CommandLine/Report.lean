/-
# Reports on the command line

A failure is reported from the outside in: what failed, and then what caused it,
numbered if there is more than one cause.  Arguments that are not taken end the
program with status 2, a failed build with status 1.
-/
import ElementBuild.Build.Session
import ElementBuild.CommandLine.Arguments

namespace ElementBuild

/-- An error of the world outside, for people. -/
def Outside.message : Outside → String
  | file e => "file error: " ++ e.name
  | toml => "the TOML is not valid"
  | json => "the JSON is not valid"
  | pattern => "the pattern is not valid"
  | encoding => "the text is not valid UTF-8"

/-- The text of a link, for people. -/
def Link.message : Link → String
  | said text => text
  | outside e => e.message

/-- A record as a line of the log. -/
def LogRecord.line : LogRecord → String
  | info text => " INFO " ++ text
  | warning text => " WARN " ++ text

/-- The causes of a failure, with numbers if there are several. -/
def Failure.causeLines (causes : List String) : List String :=
  match causes with
  | [cause] => ["    " ++ cause]
  | causes => causes.zipIdx.map fun (cause, i) => "    " ++ toString i ++ ": " ++ cause

/-- A failure as it is reported. -/
def Failure.report (f : Failure) : String :=
  match f.chain.map Link.message with
  | [] => "Error"
  | [top] => "Error: " ++ top
  | top :: causes => "Error: " ++ top ++ "\n\nCaused by:\n" ++ "\n".intercalate (Failure.causeLines causes)

namespace CommandLine

/-- How the command is used. -/
def usage : String :=
  "Usage: component-compiler [-v] [-c <CONFIG>] compile -s <SOURCE> -d <DESTINATION> " ++
    "[--sourcemap] [-p <PREFIX>] [-a]"

/-- The version of the command. -/
def version : String := "component-compiler 0.4.0"

namespace UsageError

/-- What is said about arguments that are not taken. -/
def message : UsageError → String
  | displayHelp => usage
  | displayVersion => version
  | nothingGiven => usage
  | missingSubcommand => "error: a subcommand is required\n\n" ++ usage
  | missingRequired => "error: a source and a destination are required\n\n" ++ usage
  | unknownArgument => "error: unexpected argument\n\n" ++ usage
  | invalidSubcommand => "error: unrecognized subcommand\n\n" ++ usage
  | invalidValue => "error: a value is missing or not valid\n\n" ++ usage
  | repeated => "error: an argument cannot be used multiple times\n\n" ++ usage
  | tooManyValues => "error: unexpected value\n\n" ++ usage

/-- The status that the program ends with; asking for help or the version is no
error. -/
def status : UsageError → Nat
  | displayHelp => 0
  | displayVersion => 0
  | _ => 2

end UsageError

/-- The places that a build looks at: the current folder, the folders around what it
is given, and the packages of the folders above. -/
def CompileArguments.places (a : CompileArguments) (current : Path) : List Path :=
  let outer (p : Path) : Path := p.parent?.getD p
  let source := current.join ⟨a.source⟩
  let config := (a.config.map fun p => outer (current.join ⟨p⟩)).toList
  [current, outer source, current.join ⟨a.destination⟩] ++ config ++
    (current.ancestors ++ source.ancestors).map (·.join ⟨"node_modules"⟩)

end CommandLine
end ElementBuild
