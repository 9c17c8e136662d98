/-
# Shell scripts

The part of the command language that compilers are called with: simple commands
with assignments and redirections, and groups of commands in brackets or braces, in
pipelines that are joined by `;`, `&&`, `||` and line breaks.  Words have quotes, variables and the output of other commands;
documents stand in the script.
-/

namespace ElementBuild
namespace Shell

/-- What is made of a variable. -/
inductive Use where
  | value
  | length
  /-- A text in its place if it is not set or, if asked for, empty. -/
  | orElse (ifEmpty : Bool) (text : List Char)
  /-- A text in its place if it is set and, if asked for, not empty. -/
  | andThen (ifEmpty : Bool) (text : List Char)
  /-- Without what a pattern matches at the end or the beginning. -/
  | trim (atEnd longest : Bool) (pattern : List Char)
  deriving DecidableEq, Repr

/-- A part of a word. -/
inductive Part where
  | plain (text : List Char)
  | quoted (text : List Char)
  | variable (name : String) (use : Use) (isQuoted : Bool)
  /-- The output of a script. -/
  | output (script : List Char) (isQuoted : Bool)
  deriving DecidableEq, Repr

/-- A word. -/
abbrev Word := List Part

/-- What a stream of a command is bound to. -/
inductive Redirect where
  | read (stream : Nat) (file : Word)
  | write (stream : Nat) (file : Word) (append : Bool)
  | duplicate (stream : Nat) (other : Word)
  /-- A text of the script, of which the word is made. -/
  | document (stream : Nat) (text : Word)
  deriving DecidableEq, Repr

/-- A script between brackets, which is run in a shell of its own, or between
braces. -/
structure Group where
  script : List Char
  isApart : Bool
  deriving DecidableEq, Repr

/-- A simple command, or a group. -/
structure Command where
  group : Option Group := none
  assignments : List (String × Word) := []
  words : List Word := []
  redirects : List Redirect := []
  /-- The line of the script on which it stands. -/
  line : Nat := 1
  deriving DecidableEq, Repr

/-- When a pipeline is run, given how the one before it ended. -/
inductive Condition where
  | always
  | afterSuccess
  | afterFailure
  deriving DecidableEq, Repr

/-- Commands whose outputs are the inputs of the next. -/
structure Pipeline where
  condition : Condition
  negated : Bool
  commands : List Command
  deriving DecidableEq, Repr

end Shell
end ElementBuild
