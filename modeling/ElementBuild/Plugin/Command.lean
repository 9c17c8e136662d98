/-
# Components compiled by a command

The scripts and styles of a component are preprocessed in place, and the whole is
given to a command as its input.  The command prints the module, or a JSON object
with the module as `code` and its source map as `map`.
-/
import ElementBuild.Json.Reader
import ElementBuild.Json.Writer
import ElementBuild.Plugin.Basic
import ElementBuild.Plugin.Block
import ElementBuild.Shell.Run

namespace ElementBuild

/-- A command that compiles components. -/
structure CommandConfig where
  name : String
  command : String
  arguments : List String := []
  /-- Whether the folder of a component has to name an element. -/
  customElement : Bool := true
  deriving DecidableEq, Repr

namespace Plugin
namespace Command

/-- What becomes of the content of a block; nothing for a style that nobody
preprocesses. -/
def replacement? (r : CompileRequest) (content : String) : BlockKind → Step (Option String)
  | .script => return some (← r.preprocessScript content)
  | .style =>
    match r.preprocessStyle with
    | some preprocess => return some (← preprocess content r.filename)
    | none => return none

/-- Preprocesses one block in a draft of the component. -/
def preprocessBlock (r : CompileRequest) (code : List Char) (draft : Text.Draft) (b : Block) :
    Step Text.Draft := do
  let content := String.ofList ((Text.slice? code b.span.start b.span.stop).getD [])
  match (← replacement? r content b.kind) with
  | some text => Step.edit draft ⟨text.toList, b.span.start, b.span.stop⟩
  | none => return draft

/-- Preprocesses the blocks of a component. -/
def preprocess (r : CompileRequest) : Step String := do
  let code := r.code.toList
  let draft ← (Block.all code).foldlM (preprocessBlock r code) (Text.Draft.ofString r.code)
  return draft.toString

/-- The number that digits write, if it fits 64 bits; other than ASCII digits write
none. -/
def wordNumber? (digits : List Char) : Option Nat :=
  if digits.all Char.isDigit then
    let n := digits.foldl (fun n c => 10 * n + (c.toNat - '0'.toNat)) 0
    if n < 0x10000000000000000 then some n else none
  else none

/-- The digits before and after a colon that open a text. -/
def positionDigits? (cs : List Char) : Option (List Char × List Char) :=
  match cs.span Text.isDigit with
  | (_ :: _, ':' :: rest) =>
    let column := rest.takeWhile Text.isDigit
    if column.isEmpty then none else some (cs.takeWhile Text.isDigit, column)
  | _ => none

/-- The first position that a message names, as line and column. -/
def firstPosition? : List Char → Option (List Char × List Char)
  | [] => none
  | c :: cs => positionDigits? (c :: cs) <|> firstPosition? cs

/-- The position that a message names; zero and zero if it names none. -/
def position (message : String) : Nat × Nat :=
  ((firstPosition? message.toList).bind fun (line, column) => do
    some ((← wordNumber? line), (← wordNumber? column))).getD (0, 0)

/-- A text without blanks at its beginning and end. -/
def trimmed (s : String) : String :=
  let cs := s.toList.dropWhile Text.isBlank
  String.ofList (cs.reverse.dropWhile Text.isBlank).reverse

/-- The text of a source map that a command printed. -/
def mapText? : Json → Option String
  | .null => none
  | .string s => some s
  | v => some v.compact

/-- The output that members of an object describe; each of the two may be there
once. -/
def outputOfMembers? (members : List (String × Json)) : Option CompileOutput := do
  let count (name : String) : Nat := (members.filter (·.1 == name)).length
  if 1 < count "code" ∨ 1 < count "map" then none
  else
    let code ← (Json.lastMember? members "code").bind Json.string?
    some ⟨code, (Json.lastMember? members "map").bind mapText?⟩

/-- The output that a command printed as an object. -/
def structured? (printed : String) : Option CompileOutput :=
  if (printed.toList.dropWhile Text.isBlank).head? = some '{' then
    (Json.readMembers? ["code", "map"] printed).bind outputOfMembers?
  else none

/-- What a command printed. -/
def parseOutput (printed : String) : CompileOutput :=
  (structured? printed).getD ⟨printed, none⟩

/-- The environment of a command. -/
def environment (r : CompileRequest) (tag : Option String) : List (String × String) :=
  [("COMPONENT_FILENAME", r.filename.text), ("COMPONENT_SOURCEMAP", r.sourcemap.text)] ++
    (tag.map fun t => ("COMPONENT_TAG", t)).toList

/-- Runs a command on a preprocessed component. -/
def runOn (c : CommandConfig) (r : CompileRequest) (tag : Option String) (source : String) :
    Step CompileOutput := do
  let started := Shell.run (← Step.files) c.command c.arguments (environment r tag)
    (Text.encode source)
  let finished ← Step.during (.runningCompiler c.command)
    (Step.ofExcept (.outside ∘ .file) started)
  modify fun s => { s with files := finished.files }
  if finished.succeeded then
    match Text.decode? finished.output with
    | some printed => return parseOutput printed
    | none => Step.during (.decodingOutput c.command) (Step.fail (.outside .encoding))
  else
    let message := trimmed (Text.decodeLossy finished.messages)
    let (line, column) := position message
    Step.fail (.plugin (.compiler r.filename line column message))

/-- Compiles a component. -/
def compile (c : CommandConfig) (r : CompileRequest) : Step CompileOutput := do
  Step.refusing r.check
  let tag ← if c.customElement then
      pure (some (Element.tag (← Step.refusing r.elementFolder)))
    else pure none
  Step.refusing (r.checkSource (← Step.files))
  Step.refusing r.sourcemap.check
  let source ← preprocess r
  runOn c r tag source

end Command

/-- The plugin that runs a command. -/
def command (c : CommandConfig) : Plugin := ⟨c.name, Command.compile c⟩

end Plugin
end ElementBuild
