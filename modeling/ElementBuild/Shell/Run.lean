/-
# Running commands

A program is known by its name, with or without the folder of system programs
before it.  A script is run pipeline by pipeline; scripts within words are run to a
depth.  `run` is what comes of starting a program with an environment and an input.

| program | output |
| --- | --- |
| `cat` | its input, or the files that it is given |
| `echo` | its arguments, escapes replaced in a script |
| `printf` | formatted arguments |
| `true`, `:`, `false` | nothing |
| `sh -c` | the output of a script |
-/
import ElementBuild.Shell.Machine
import ElementBuild.Shell.Format

namespace ElementBuild
namespace Shell

/-- Output on the stream of messages. -/
def message (text : String) : Output := [(2, Text.encode text)]

/-- The message of a script about one of its lines. -/
def complaint (m : Machine) (line : Nat) (text : String) : Output :=
  message (m.name ++ ": " ++ toString line ++ ": " ++ text ++ "\n")

/-- What comes of a command that ends with a status. -/
def ended (m : Machine) (status : Nat) (output : Output) : Outcome :=
  ⟨{ m with status }, output, .goesOn⟩

/-- How a program words an error about a file. -/
def fileMessage : FileError → String
  | .notADirectory => "Not a directory"
  | .isADirectory => "Is a directory"
  | _ => "No such file or directory"

/-- The bytes of a content. -/
def contentBytes : Content → List UInt8
  | .text s => Text.encode s
  | .bytes bs => bs

/-- Prints files one after another; `-` is the input. -/
def catFiles (m : Machine) (output : Output) : List String → Outcome
  | [] => ended m m.status output
  | name :: names =>
    if name = "-" then catFiles { m with input := [] } (output ++ [(1, m.input)]) names
    else
      match m.files.read ⟨name⟩ with
      | .ok content => catFiles m (output ++ [(1, contentBytes content)]) names
      | .error e =>
        let output := output ++ message ("cat: " ++ name ++ ": " ++ fileMessage e ++ "\n")
        catFiles { m with status := 1 } output names

/-- The program `cat`. -/
def cat (m : Machine) (arguments : List String) : Outcome :=
  catFiles { m with status := 0 } [] (if arguments.isEmpty then ["-"] else arguments)

/-- The program `echo`. -/
def echo (m : Machine) (escapes : Bool) (arguments : List String) : Outcome :=
  let (breaks, arguments) := match arguments with
    | "-n" :: rest => (false, rest)
    | rest => (true, rest)
  let text := " ".intercalate arguments
  let (bytes, stopped) :=
    if escapes then unescape text.length text.toList else (Text.encode text, false)
  ended m 0 [(1, if breaks && !stopped then bytes ++ [10] else bytes)]

/-- The status that an argument gives. -/
def statusOf (m : Machine) (arguments : List String) : Nat :=
  match arguments with
  | a :: _ => (a.toNat?.getD 2) % 256
  | [] => m.status

/-- A program that a script and the system both have. -/
def program? (m : Machine) (escapes : Bool) (name : String) (arguments : List String) :
    Option Outcome :=
  match name with
  | "cat" => some (cat m arguments)
  | "echo" => some (echo m escapes arguments)
  | "printf" =>
    match arguments with
    | format :: rest => some (ended m 0 [(1, Shell.format format rest)])
    | [] =>
      some (ended m 2 (complaint m 1 "printf: usage: printf format [arg ...]"))
  | "true" => some (ended m 0 [])
  | "false" => some (ended m 1 [])
  | _ => none

/-- Leaves the shell with a status, which has to be a number. -/
def exit (m : Machine) (line : Nat) (arguments : List String) : Outcome :=
  match arguments with
  | a :: _ =>
    if a.toNat?.isSome then { ended m (statusOf m arguments) [] with ending := .exits }
    else { ended m 2 (complaint m line ("exit: Illegal number: " ++ a)) with ending := .exits }
  | [] => { ended m (statusOf m arguments) [] with ending := .exits }

/-- A command of scripts alone. -/
def builtin? (m : Machine) (line : Nat) (name : String) (arguments : List String) : Option Outcome :=
  match name with
  | ":" => some (ended m 0 [])
  | "exit" => some (exit m line arguments)
  | "unset" =>
    some (ended { m with bindings := m.bindings.filter fun b => !arguments.contains b.1 } 0 [])
  | "export" =>
    some (ended (arguments.foldl (fun m a =>
      match a.toList.span (· ≠ '=') with
      | (name, _ :: value) => m.assign (String.ofList name) (String.ofList value)
      | _ => m) m) 0 [])
  | "shift" => some (ended { m with arguments := m.arguments.drop 1 } 0 [])
  | "kill" =>
    -- the only process that a script knows is itself
    if arguments.getLast? == some Machine.self then some { ended m 137 [] with ending := .killed }
    else some (ended m 1 [])
  | _ => none

/-- The name of a program without the folder of system programs. -/
def systemName (name : String) : String :=
  let folder? := ["/bin/", "/usr/bin/"].findSome? fun f => f.toList.isPrefixOf? name.toList
  match folder? with
  | some rest => String.ofList rest
  | none => name

/-- What a stream of a command is bound to. -/
inductive Binding where
  | stream (n : Nat)
  | file (p : Path)
  | nowhere
  deriving DecidableEq, Repr

/-- The bindings of the streams of a command. -/
abbrev Bindings := List (Nat × Binding)

/-- What a stream is bound to. -/
def Bindings.of (b : Bindings) (n : Nat) : Binding :=
  ((b.find? (·.1 == n)).map (·.2)).getD (.stream n)

/-- A file with bytes at its end. -/
def appendFile (t : FileTree) (p : Path) (bs : List UInt8) : FileTree :=
  let before := match t.read p with
    | .ok content => contentBytes content
    | .error _ => []
  (t.write p (.ofBytes (before ++ bs))).toOption.getD t

/-- Sends pieces of output where their streams are bound to. -/
def Bindings.send (b : Bindings) (m : Machine) (output : Output) : Machine × Output :=
  output.foldl (fun (m, sent) (n, bs) =>
    match b.of n with
    | .stream k => (m, sent ++ [(k, bs)])
    | .file p => ({ m with files := appendFile m.files p bs }, sent)
    | .nowhere => (m, sent)) (m, [])

/-- What comes of binding a stream: the machine, the bindings, or a complaint. -/
def bindStream (inner : Machine → List Char → Outcome) (line : Nat)
    (state : Except Outcome (Machine × Output × Bindings)) (r : Redirect) :
    Except Outcome (Machine × Output × Bindings) := do
  let (m, o, b) ← state
  match r with
  | .document _ text =>
    let (m, o', s) := expandWhole inner m text
    .ok ({ m with input := Text.encode s }, o ++ o', b)
  | .read _ file =>
    let (m, o', name) := expandWhole inner m file
    if name = "/dev/null" then .ok ({ m with input := [] }, o ++ o', b)
    else
      match m.files.read ⟨name⟩ with
      | .ok content => .ok ({ m with input := contentBytes content }, o ++ o', b)
      | .error _ => .error (ended m 2 (o ++ o' ++ complaint m line ("cannot open " ++ name ++ ": No such file")))
  | .duplicate n other =>
    let (m, o', name) := expandWhole inner m other
    match name.toNat? with
    | some k => .ok (m, o ++ o', (n, b.of k) :: b)
    | none => .ok (m, o ++ o', (n, .nowhere) :: b)
  | .write n file append =>
    let (m, o', name) := expandWhole inner m file
    if name = "/dev/null" then .ok (m, o ++ o', (n, .nowhere) :: b)
    else if name = "/dev/stdout" then .ok (m, o ++ o', (n, b.of 1) :: b)
    else if name = "/dev/stderr" then .ok (m, o ++ o', (n, b.of 2) :: b)
    else
      let text := if append then (m.files.read ⟨name⟩).toOption.getD (.text "") else .text ""
      match m.files.write ⟨name⟩ text with
      | .ok files => .ok ({ m with files }, o ++ o', (n, .file ⟨name⟩) :: b)
      | .error _ =>
        .error (ended m 2 (o ++ o' ++
          complaint m line ("cannot create " ++ name ++ ": Directory nonexistent")))

/-- The words of a command. -/
def expandAll (inner : Machine → List Char → Outcome) (m : Machine) (ws : List Word) :
    Machine × Output × List String :=
  ws.foldl (fun (m, o, words) w =>
    let (m, o', more) := expand inner m w
    (m, o ++ o', words ++ more)) (m, [], [])

/-- The machine after assignments. -/
def assignAll (inner : Machine → List Char → Outcome) (m : Machine)
    (assignments : List (String × Word)) : Machine × Output :=
  assignments.foldl (fun (m, o) (name, w) =>
    let (m, o', value) := expandWhole inner m w
    (m.assign name value, o ++ o')) (m, [])

/-- The arguments of a script given to `sh`. -/
def scriptOf? (m : Machine) (arguments : List String) : Option (List Char × Machine) :=
  match arguments with
  | "-c" :: script :: rest =>
    some (script.toList, { m with name := rest.headD "sh", arguments := rest.drop 1 })
  | file :: rest =>
    match m.files.readText ⟨file⟩ with
    | .ok text => some (text.toList, { m with name := file, arguments := rest })
    | .error _ => none
  | [] => some ((Text.decodeLossy m.input).toList, { m with input := [] })

/-- Runs a script in a shell of its own; `inner` runs it. -/
def subshell (inner : Machine → List Char → Outcome) (m : Machine) (arguments : List String) :
    Outcome :=
  match scriptOf? m arguments with
  | some (text, sub) =>
    let r := inner { sub with status := 0 } text
    ⟨{ m with files := r.machine.files, input := r.machine.input, status := r.machine.status },
      r.output, .goesOn⟩
  | none =>
    ended m 2 (message ("sh: 0: cannot open " ++ arguments.headD "" ++ ": No such file\n"))

/-- Runs a program that a script calls. -/
def callProgram (inner : Machine → List Char → Outcome) (line : Nat) (m : Machine) (name : String)
    (arguments : List String) : Outcome :=
  match builtin? m line name arguments <|> program? m true (systemName name) arguments with
  | some r => r
  | none =>
    if systemName name = "sh" then subshell inner m arguments
    else if name = "eval" then inner m (" ".intercalate arguments).toList
    else ended m 127 (complaint m line (name ++ ": not found"))

/-- Runs what a script calls; `exec` leaves the shell with it. -/
def call (inner : Machine → List Char → Outcome) (line : Nat) (m : Machine) (name : String)
    (arguments : List String) : Outcome :=
  match name, arguments with
  | "exec", name :: rest =>
    { callProgram inner line m name rest with ending := .exits }
  | "command", name :: rest => callProgram inner line m name rest
  | _, _ => callProgram inner line m name arguments

/-- Runs a group; from a shell of its own only the files, the input and the status
come back. -/
def runGroup (inner : Machine → List Char → Outcome) (m : Machine) (g : Group) : Outcome :=
  let r := inner m g.script
  if g.isApart then
    { r with
      machine := { m with files := r.machine.files, input := r.machine.input,
                          status := r.machine.status }
      ending := if r.ending = .killed then .killed else .goesOn }
  else r

/-- Whether what a command does to the variables of the shell stays. -/
def keepsBindings : List String → Bool
  | [] => true
  | name :: _ => ["export", "unset", "eval"].contains name

/-- Runs a command. -/
def runCommand (inner : Machine → List Char → Outcome) (m : Machine) (c : Command) : Outcome :=
  let (m₁, o₁, words) := expandAll inner m c.words
  match c.redirects.foldl (bindStream inner c.line) (.ok (m₁, o₁, [])) with
  | .error r => r
  | .ok (m₂, o₂, bindings) =>
    let (m₃, o₃) := assignAll inner m₂ c.assignments
    let r := match c.group, words with
      | some g, _ => runGroup inner m₃ g
      | none, name :: arguments => call inner c.line m₃ name arguments
      | none, [] => ended m₃ 0 []
    let (m₄, sent) := bindings.send r.machine r.output
    -- an input of its own does not use up that of the script
    let ownInput := c.redirects.any fun | .read .. => true | .document .. => true | _ => false
    let kept : Machine := { m₄ with
      input := if ownInput then m₁.input else m₄.input
      bindings := if keepsBindings words then m₄.bindings else m.bindings }
    ⟨kept, o₂ ++ o₃ ++ sent, r.ending⟩

/-- Runs the commands of a pipeline, each on the output of the one before. -/
def runCommands (inner : Machine → List Char → Outcome) (m : Machine) : List Command → Outcome
  | [] => ended m 0 []
  | [c] => runCommand inner m c
  | c :: cs =>
    let r := runCommand inner m c
    let next := runCommands inner
      { m with files := r.machine.files, input := r.output.stream 1 } cs
    ⟨{ m with files := next.machine.files, status := next.machine.status, input := r.machine.input },
      r.output.filter (·.1 != 1) ++ next.output, .goesOn⟩

/-- Whether a pipeline is run after a status. -/
def Condition.holds (status : Nat) : Condition → Bool
  | always => true
  | afterSuccess => status == 0
  | afterFailure => status != 0

/-- Runs pipelines until one leaves the shell. -/
def runPipelines (inner : Machine → List Char → Outcome) (m : Machine) : List Pipeline → Outcome
  | [] => ⟨m, [], .goesOn⟩
  | p :: ps =>
    if p.condition.holds m.status then
      let r := runCommands inner m p.commands
      let status := if p.negated then (if r.machine.status = 0 then 1 else 0) else r.machine.status
      match r.ending with
      | .goesOn =>
        let rest := runPipelines inner { r.machine with status } ps
        { rest with output := r.output ++ rest.output }
      | _ => r
    else runPipelines inner m ps

/-- Runs a script, with scripts within it to a depth. -/
def runScript : Nat → Machine → List Char → Outcome
  | 0, m, _ => ended m 2 []
  | depth + 1, m, text =>
    match read? text with
    | some ps => runPipelines (runScript depth) m ps
    | none => ended m 2 (complaint m 1 "Syntax error")

/-- How deep scripts stand in scripts. -/
def depthLimit : Nat := 20

/-- What a program has left behind. -/
structure Finished where
  succeeded : Bool
  output : List UInt8
  messages : List UInt8
  files : FileTree
  deriving Repr

/-- Starts a program and waits for its end. -/
def run (files : FileTree) (program : String) (arguments : List String)
    (environment : List (String × String)) (input : List UInt8) : Except FileError Finished :=
  let m : Machine := { files, bindings := environment, input }
  let finish (r : Outcome) : Finished :=
    ⟨r.machine.status == 0 && r.ending != .killed, r.output.stream 1, r.output.stream 2,
      r.machine.files⟩
  if systemName program = "sh" then .ok (finish (subshell (runScript depthLimit) m arguments))
  else
    match program? m false (systemName program) arguments with
    | some r => .ok (finish r)
    | none => .error .notFound

end Shell
end ElementBuild
