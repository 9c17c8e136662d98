/-
# Reading a token sequence

A reader looks at one token at a time.  It stops at a fatal fault; other faults
are noted and reading goes on.  The place where a fatal fault leaves the reader
matters, because some rules recover from it there.

What may stand at a place depends on the context around it: the function it is
in, the kind of loop, whether `in` is an operator.
-/
import ElementBuild.Script.Lexer
import ElementBuild.Number.Display

namespace ElementBuild
namespace Script

/-- What surrounds a place of the grammar. -/
structure Context where
  inFunction : Bool := false
  inAsync : Bool := false
  inGenerator : Bool := false
  /-- `in` is an operator here. -/
  includeIn : Bool := true
  inParameters : Bool := false
  inClass : Bool := false
  inField : Bool := false
  inStaticBlock : Bool := false
  allowSuper : Bool := false
  breakAllowed : Bool := false
  continueAllowed : Bool := false
  /-- Within a function that is not an arrow function. -/
  inPlainFunction : Bool := false
  labels : List String := []
  deriving Repr

/-- Where the reader stands. -/
structure State where
  /-- The token to be read next. -/
  current : Lexeme
  /-- Where the token read last begins and ends. -/
  lastStart : Nat
  lastStop : Nat
  /-- Where the expression begins that may turn out to be an arrow function. -/
  arrowStart : Option Nat
  /-- Faults noted so far, last first. -/
  noted : List Located

/-- A step of reading. -/
abbrev Reader := EStateM Located State

namespace Reader

/-- The state before the first token of a text. -/
def initial (cs : List Char) : State :=
  ⟨firstLexeme cs, 0, 0, none, []⟩

/-- The token to be read next. -/
def token : Reader Token := return (← get).current.token

/-- Where that token starts; the end of the text counts as the end of the last
token. -/
def here : Reader Nat := do
  let s ← get
  return match s.current.token with
    | .endOfText => s.lastStop
    | _ => s.current.start

/-- The place to blame for that token; at the end of the text, the beginning of
the last token. -/
def blame : Reader Nat := do
  let s ← get
  return match s.current.token with
    | .endOfText => s.lastStart
    | _ => s.current.start

/-- Where the last token ended. -/
def lastStop : Reader Nat := return (← get).lastStop

/-- Where the last token began. -/
def lastStart : Reader Nat := return (← get).lastStart

/-- Whether a line break precedes the next token. -/
def afterBreak : Reader Bool := return (← get).current.afterBreak

/-- Takes over the faults of the token to be read next. -/
def settle : Reader Unit :=
  modify fun s =>
    { s with noted := s.current.faults ++ s.noted, current := { s.current with faults := [] } }

/-- Passes the next token. -/
def bump : Reader Unit :=
  modify fun s =>
    match s.current.token with
    | .endOfText => s
    | _ =>
      { s with
        noted := s.current.faults ++ s.noted
        lastStart := s.current.start
        lastStop := s.current.stop
        current := lexeme s.current.rest s.current.stop }

/-- The token after the next one, and whether a line break separates them. -/
def peek : Reader Lexeme := do
  let s ← get
  return match s.current.token with
    | .endOfText => s.current
    | _ => lexeme s.current.rest s.current.stop

/-- Notes the fault of a broken token and passes it. -/
def passBroken : Reader Unit := do
  match (← token) with
  | .broken f =>
    settle
    modify fun s => { s with noted := f :: s.noted }
    bump
  | _ => settle

/-- Notes a fault and goes on. -/
def note (fault : Fault) (offset : Nat) : Reader Unit := do
  passBroken
  modify fun s => { s with noted := ⟨fault, offset⟩ :: s.noted }

/-- Stops at a fault. -/
def fail {α : Type} (fault : Fault) (offset : Nat) : Reader α := do
  passBroken
  throw ⟨fault, offset⟩

/-- The next token, which has to exist and to be whole. -/
def need : Reader Token := do
  match (← token) with
  | .broken f =>
    bump
    throw f
  | .endOfText => throw ⟨.unexpectedEnd, ← lastStop⟩
  | t => return t

/-- The next token if it exists; a broken one stops the reader. -/
def whole : Reader (Option Token) := do
  match (← token) with
  | .broken f =>
    bump
    throw f
  | .endOfText => return none
  | t => return some t

/-- Whether the next token is a punctuator. -/
def at? (p : Punctuator) : Reader Bool := return (← token) == .punctuator p

/-- Whether the next token is a word. -/
def word? (w : String) : Reader Bool := return (← token) == .word w

/-- Whether the text ends here. -/
def atEnd : Reader Bool := return (← token) == .endOfText

/-- Passes a punctuator if it is next. -/
def eat (p : Punctuator) : Reader Bool := do
  if ← at? p then
    bump
    return true
  else return false

/-- Passes a word if it is next. -/
def eatWord (w : String) : Reader Bool := do
  if ← word? w then
    bump
    return true
  else return false

/-- How a message shows a token. -/
def shown : Token → String
  | .word w => w
  | .punctuator p => p.text
  | .number raw => "numeric literal (" ++ Number.displayed raw ++ ", " ++ raw ++ ")"
  | .bigInteger raw => "bigint literal (" ++ Number.bigDisplayed raw ++ ", " ++ raw ++ ")"
  | .string value raw => "string literal (" ++ value ++ ", " ++ raw ++ ")"
  | .template raw => "template token (" ++ raw ++ ")"
  | .regex pattern flags => "regexp literal (" ++ pattern ++ ", " ++ flags ++ ")"
  | .endOfText => "<eof>"
  | .broken f => f.fault.message

/-- Stops because the next token is not among those described. -/
def unexpected {α : Type} (wanted : String) : Reader α := do
  fail (.unexpected (shown (← token)) wanted) (← blame)

/-- Passes a punctuator that has to be next. -/
def expect (p : Punctuator) : Reader Unit := do
  unless ← eat p do
    fail (.expected p.text (shown (← token))) (← blame)

/-- Passes a word that has to be next. -/
def expectWord (w : String) : Reader Unit := do
  unless ← eatWord w do
    fail (.expected w (shown (← token))) (← blame)

/-- Whether a statement may end here: at a semicolon, a closing brace, the end
of the text or a line break. -/
def atStatementEnd : Reader Bool := do
  match (← token) with
  | .punctuator .semicolon => return true
  | .punctuator .braceClose => return true
  | .endOfText => return true
  | _ => afterBreak

/-- Ends a statement, passing a semicolon if there is one. -/
def eatStatementEnd : Reader Bool := do
  if ← eat .semicolon then return true else atStatementEnd

/-- Ends a statement that has to end here. -/
def expectStatementEnd : Reader Unit := do
  unless ← eatStatementEnd do
    fail (.expected ";" (shown (← token))) (← blame)

/-- Repeats a step until it says that it is done; `fuel` bounds the number of
rounds. -/
def loop {α : Type} : Nat → (α → Reader (α × Bool)) → α → Reader α
  | 0, _, a => return a
  | fuel + 1, step, a => do
    let (a, more) ← step a
    if more then loop fuel step a else return a

end Reader

/-! ### Words as identifiers -/

/-- Whether a word is reserved in a module, so that it neither is bound nor refers
to a binding. -/
def isReserved (w : String) : Bool :=
  reservedWords.contains w ||
    ["await", "enum", "implements", "interface", "let", "package", "private", "protected", "public",
      "yield"].contains w

namespace Reader

/-- An identifier; strict mode's words are noted, reserved words stop. -/
def identifier (ctx : Context) : Reader (String × Nat) := do
  match (← need) with
  | .word w =>
    let start ← here
    bump
    if strictWords.contains w then note (.reservedInStrict w) start
    if w == "await" then
      if ctx.inStaticBlock then fail .expectedIdentifier start
      else fail .reservedAwait start
    else if reservedWords.contains w then fail .expectedIdentifier start
    else
      if ctx.inField && w == "arguments" then note .argumentsInField start
      return (w, start)
  | _ => fail .expectedIdentifier (← blame)

/-- Any word, as a property name. -/
def identifierName : Reader (String × Nat) := do
  match (← need) with
  | .word w =>
    let start ← here
    bump
    return (w, start)
  | _ => fail .expectedIdentifier (← blame)

/-- The name after a hash mark that was just passed; nothing may stand between
them. -/
def privateName : Reader (String × Nat) := do
  let start ← lastStart
  if (← here) != (← lastStop) then fail .spaceAfterHash start
  identifierName

/-- A name that is bound here. -/
def bindingIdentifier (ctx : Context) : Reader (String × Nat) := do
  let (w, start) ← identifier ctx
  if w == "eval" || w == "arguments" then note .reservedBinding start
  if ctx.inGenerator && w == "yield" then note .expectedIdentifier start
  return (w, start)

/-- Whether the next token is a word that may be bound or referred to. -/
def atIdentifier : Reader Bool := do
  match (← token) with
  | .word w => return !isReserved w
  | _ => return false

end Reader

end Script
end ElementBuild
