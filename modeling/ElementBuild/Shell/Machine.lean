/-
# The state of a shell

A shell has files, variables, arguments, an input that its commands share, and the
status of the last command.  What a command gives is a list of pieces of output,
each with the number of its stream.
-/
import ElementBuild.FileTree.Access
import ElementBuild.Text.Utf8
import ElementBuild.Shell.Reader

namespace ElementBuild
namespace Shell

/-- The state of a shell. -/
structure Machine where
  files : FileTree
  bindings : List (String × String)
  /-- The name of the script. -/
  name : String := "sh"
  arguments : List String := []
  input : List UInt8 := []
  status : Nat := 0
  deriving Repr

/-- Pieces of output by the numbers of their streams. -/
abbrev Output := List (Nat × List UInt8)

/-- The bytes of one stream. -/
def Output.stream (o : Output) (n : Nat) : List UInt8 :=
  o.flatMap fun piece => if piece.1 = n then piece.2 else []

/-- How a command leaves the shell. -/
inductive Ending where
  | goesOn
  | exits
  | killed
  deriving DecidableEq, Repr

/-- What has come of a command. -/
structure Outcome where
  machine : Machine
  output : Output := []
  ending : Ending := .goesOn
  deriving Repr

namespace Machine

/-- How a script names its own process. -/
def self : String := "$"

/-- A variable that is set. -/
def valueOf? (m : Machine) (name : String) : Option String :=
  if name = "?" then some (toString m.status)
  else if name = "$" then some self
  else if name = "#" then some (toString m.arguments.length)
  else if name = "@" ∨ name = "*" then some (" ".intercalate m.arguments)
  else if name = "0" then some m.name
  else
    match name.toNat? with
    | some n => m.arguments[n - 1]?
    | none => (m.bindings.find? (·.1 == name)).map (·.2)

/-- Sets a variable. -/
def assign (m : Machine) (name value : String) : Machine :=
  { m with bindings := (name, value) :: m.bindings.filter (·.1 != name) }

end Machine

/-! ### Patterns -/

/-- Whether a text matches a pattern of `*`, `?` and single characters. -/
def matchesGlob : Nat → List Char → List Char → Bool
  | 0, _, _ => false
  | _, [], text => text.isEmpty
  | fuel + 1, '*' :: ps, text =>
    matchesGlob fuel ps text ||
      match text with
      | _ :: rest => matchesGlob fuel ('*' :: ps) rest
      | [] => false
  | fuel + 1, '?' :: ps, _ :: rest => matchesGlob fuel ps rest
  | fuel + 1, '\\' :: p :: ps, c :: rest => p == c && matchesGlob fuel ps rest
  | fuel + 1, p :: ps, c :: rest => p == c && matchesGlob fuel ps rest
  | _, _ :: _, [] => false

/-- A text without what a pattern matches at its beginning. -/
def trimStart (longest : Bool) (pattern text : List Char) : List Char :=
  let lengths := List.range (text.length + 1)
  let fits (n : Nat) : Bool :=
    matchesGlob (2 * (text.length + pattern.length) + 2) pattern (text.take n)
  match (if longest then lengths.reverse else lengths).find? fits with
  | some n => text.drop n
  | none => text

/-- A text without what a pattern matches at its end. -/
def trimEnd (longest : Bool) (pattern text : List Char) : List Char :=
  let lengths := List.range (text.length + 1)
  let fits (n : Nat) : Bool :=
    matchesGlob (2 * (text.length + pattern.length) + 2) pattern (text.drop n)
  match (if longest then lengths else lengths.reverse).find? fits with
  | some n => text.take n
  | none => text

/-! ### Words -/

/-- What is put in the place of a variable. -/
def Machine.valueOf (m : Machine) (name : String) : Use → List Char
  | .value => ((m.valueOf? name).getD "").toList
  | .length => (toString ((m.valueOf? name).getD "").length).toList
  | .orElse ifEmpty text =>
    match m.valueOf? name with
    | some v => if v.isEmpty && ifEmpty then text else v.toList
    | none => text
  | .andThen ifEmpty text =>
    match m.valueOf? name with
    | some v => if v.isEmpty && ifEmpty then [] else text
    | none => []
  | .trim atEnd longest pattern =>
    let v := ((m.valueOf? name).getD "").toList
    if atEnd then trimEnd longest pattern v else trimStart longest pattern v

/-- Words in the making: finished ones in reverse, and one that may have begun. -/
structure Fields where
  done : List (List Char) := []
  current : Option (List Char) := none
  deriving Repr

namespace Fields

/-- Adds text to the word that has begun. -/
def append (f : Fields) (text : List Char) : Fields :=
  { f with current := some (f.current.getD [] ++ text) }

/-- Ends the word that has begun. -/
def close (f : Fields) : Fields :=
  match f.current with
  | some w => ⟨w :: f.done, none⟩
  | none => f

/-- Adds text whose blanks end words. -/
def split (f : Fields) (text : List Char) : Fields :=
  text.foldl (fun f c => if c = ' ' ∨ c = '\t' ∨ c = '\n' then f.close else f.append [c]) f

/-- The words. -/
def words (f : Fields) : List String := (f.close.done.reverse).map String.ofList

end Fields

/-- A text without line breaks at its end. -/
def trimBreaks (cs : List Char) : List Char := (cs.reverse.dropWhile (· == '\n')).reverse

/-- Puts one part of a word into fields; `inner` runs the scripts within. -/
def expandPart (inner : Machine → List Char → Outcome) (state : Machine × Output × Fields) :
    Part → Machine × Output × Fields
  | .plain text => (state.1, state.2.1, state.2.2.append text)
  | .quoted text => (state.1, state.2.1, state.2.2.append text)
  | .variable name use isQuoted =>
    let (m, o, f) := state
    let text := m.valueOf name use
    (m, o, if isQuoted then f.append text else f.split text)
  | .output script isQuoted =>
    let (m, o, f) := state
    let r := inner m script
    let text := trimBreaks (Text.decodeLossy (r.output.stream 1)).toList
    ({ m with files := r.machine.files, input := r.machine.input, status := r.machine.status },
      o ++ r.output.filter (·.1 != 1), if isQuoted then f.append text else f.split text)

/-- The words that a word stands for. -/
def expand (inner : Machine → List Char → Outcome) (m : Machine) (w : Word) :
    Machine × Output × List String :=
  let (m, o, f) := w.foldl (expandPart inner) (m, [], {})
  (m, o, f.words)

/-- The one text that a word stands for where it is not split. -/
def expandWhole (inner : Machine → List Char → Outcome) (m : Machine) (w : Word) :
    Machine × Output × String :=
  let whole := w.map fun
    | .variable name use _ => .variable name use true
    | .output script _ => .output script true
    | p => p
  let (m, o, f) := whole.foldl (expandPart inner) (m, [], {})
  (m, o, String.ofList (f.current.getD []))

end Shell
end ElementBuild
