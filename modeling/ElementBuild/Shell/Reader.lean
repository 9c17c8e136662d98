/-
# Reading shell scripts

A script is read character by character into pipelines.  The text of a document
begins on the line after the one that asks for it; it is taken out of the script as
soon as it is asked for.
-/
import ElementBuild.Shell.Syntax

namespace ElementBuild
namespace Shell

/-- Whether a character opens the name of a variable. -/
def isNameStart (c : Char) : Bool := c.isAlpha || c == '_'

/-- Whether a character continues the name of a variable. -/
def isNamePart (c : Char) : Bool := isNameStart c || c.isDigit

/-- Whether a character ends a word. -/
def endsWord (c : Char) : Bool := " \t\n;&|<>()".toList.contains c

/-- The text up to the bracket that closes a substitution, and what follows. -/
def closing? (opening close : Char) : Nat → Nat → List Char → List Char → Option (List Char × List Char)
  | 0, _, _, _ => none
  | _, _, _, [] => none
  | fuel + 1, depth, read, c :: cs =>
    if c = '\\' then
      match cs with
      | d :: cs => closing? opening close fuel depth (d :: c :: read) cs
      | [] => none
    else if c = '\'' ∧ close = ')' then
      let (body, rest) := cs.span (· ≠ '\'')
      closing? opening close fuel depth ('\'' :: body.reverse ++ c :: read) (rest.drop 1)
    else if c = close then
      if depth = 0 then some (read.reverse, cs)
      else closing? opening close fuel (depth - 1) (c :: read) cs
    else if c = opening then closing? opening close fuel (depth + 1) (c :: read) cs
    else closing? opening close fuel depth (c :: read) cs

/-- What is made of a variable, by the text after its name in braces. -/
def use? : List Char → Option Use
  | [] => some .value
  | ':' :: '-' :: cs => some (.orElse true cs)
  | '-' :: cs => some (.orElse false cs)
  | ':' :: '+' :: cs => some (.andThen true cs)
  | '+' :: cs => some (.andThen false cs)
  | '#' :: '#' :: cs => some (.trim false true cs)
  | '#' :: cs => some (.trim false false cs)
  | '%' :: '%' :: cs => some (.trim true true cs)
  | '%' :: cs => some (.trim true false cs)
  | _ => none

/-- The variable that stands between braces. -/
def bracedVariable? (isQuoted : Bool) (body : List Char) : Option Part :=
  match body with
  | '#' :: c :: cs =>
    if (c :: cs).all isNamePart then some (.variable (String.ofList (c :: cs)) .length isQuoted)
    else none
  | _ =>
    let (name, rest) := body.span isNamePart
    if name.isEmpty then none
    else (use? rest).map fun use => .variable (String.ofList name) use isQuoted

/-- What a dollar sign opens. -/
def dollar? (isQuoted : Bool) (cs : List Char) : Option (Part × List Char) :=
  match cs with
  | '{' :: rest => do
    let (body, rest) ← closing? '{' '}' (rest.length + 1) 0 [] rest
    let part ← bracedVariable? isQuoted body
    some (part, rest)
  | '(' :: rest => do
    let (body, rest) ← closing? '(' ')' (rest.length + 1) 0 [] rest
    some (.output body isQuoted, rest)
  | c :: rest =>
    if isNameStart c then
      let (name, rest) := cs.span isNamePart
      some (.variable (String.ofList name) .value isQuoted, rest)
    else if c.isDigit || "?$#@*!-".toList.contains c then
      some (.variable (String.ofList [c]) .value isQuoted, rest)
    else some (.quoted ['$'], cs)
  | [] => some (.quoted ['$'], [])

/-- The script between back quotes. -/
def backQuoted? (isQuoted : Bool) (cs : List Char) : Option (Part × List Char) :=
  match cs.span (· ≠ '`') with
  | (body, _ :: rest) => some (.output body isQuoted, rest)
  | _ => none

/-- The parts of a text in which variables are replaced, up to a quote if there is
one that closes it. -/
def expandable? (close : Option Char) : Nat → List Part → List Char → Option (List Part × List Char)
  | 0, _, _ => none
  | _, read, [] => if close.isNone then some (read.reverse, []) else none
  | fuel + 1, read, c :: cs =>
    if close = some c then some (read.reverse, cs)
    else if c = '\\' then
      match cs with
      | d :: rest =>
        if d = '\n' then expandable? close fuel read rest
        else if d = '$' ∨ d = '`' ∨ d = '\\' ∨ close = some d then
          expandable? close fuel (.quoted [d] :: read) rest
        else expandable? close fuel (.quoted [c, d] :: read) rest
      | [] => expandable? close fuel (.quoted [c] :: read) []
    else if c = '$' then
      (dollar? true cs).bind fun (part, rest) => expandable? close fuel (part :: read) rest
    else if c = '`' then
      (backQuoted? true cs).bind fun (part, rest) => expandable? close fuel (part :: read) rest
    else
      match read with
      | .quoted text :: before => expandable? close fuel (.quoted (text ++ [c]) :: before) cs
      | _ => expandable? close fuel (.quoted [c] :: read) cs

/-- A word; nothing if a quote is not closed. -/
def word? : Nat → List Part → List Char → Option (Word × List Char)
  | 0, _, _ => none
  | _, read, [] => some (read.reverse, [])
  | fuel + 1, read, c :: cs =>
    if endsWord c then some (read.reverse, c :: cs)
    else if c = '\\' then
      match cs with
      | '\n' :: rest => word? fuel read rest
      | d :: rest => word? fuel (.quoted [d] :: read) rest
      | [] => some ((.quoted [c] :: read).reverse, [])
    else if c = '\'' then
      match cs.span (· ≠ '\'') with
      | (body, _ :: rest) => word? fuel (.quoted body :: read) rest
      | _ => none
    else if c = '"' then
      (expandable? (some '"') (cs.length + 1) [] cs).bind fun (parts, rest) =>
        word? fuel (parts.reverse ++ .quoted [] :: read) rest
    else if c = '$' then
      (dollar? false cs).bind fun (part, rest) => word? fuel (part :: read) rest
    else if c = '`' then
      (backQuoted? false cs).bind fun (part, rest) => word? fuel (part :: read) rest
    else
      match read with
      | .plain text :: before => word? fuel (.plain (text ++ [c]) :: before) cs
      | _ => word? fuel (.plain [c] :: read) cs

/-- Text without the blanks and joined lines at its beginning. -/
def dropSpaces : List Char → List Char
  | ' ' :: cs => dropSpaces cs
  | '\t' :: cs => dropSpaces cs
  | '\\' :: '\n' :: cs => dropSpaces cs
  | cs => cs

/-- The next word after blanks. -/
def nextWord? (cs : List Char) : Option (Word × List Char) :=
  let cs := dropSpaces cs
  (word? (cs.length + 1) [] cs).bind fun (w, rest) => if w.isEmpty then none else some (w, rest)

/-- The text that a word writes if nothing in it is replaced, and whether any of
it is quoted. -/
def literalText (w : Word) : List Char × Bool :=
  (w.flatMap fun | .plain t => t | .quoted t => t | _ => [],
    w.any fun | .quoted _ => true | _ => false)

/-- The lines of a document up to its end mark, and the text after it. -/
def documentLines (mark : List Char) (tabs : Bool) : Nat → List Char → List Char × List Char
  | 0, cs => ([], cs)
  | _, [] => ([], [])
  | fuel + 1, cs =>
    let (line, rest) := cs.span (· ≠ '\n')
    let shown := if tabs then line.dropWhile (· == '\t') else line
    if shown = mark then ([], rest.drop 1)
    else
      let (more, after) := documentLines mark tabs fuel (rest.drop 1)
      (shown ++ '\n' :: more, after)

/-- A document, and the script without it. -/
def document? (cs : List Char) (tabs : Bool) : Option (Word × List Char) := do
  let (markWord, rest) ← nextWord? cs
  let (mark, isQuoted) := literalText markWord
  let (line, below) := rest.span (· ≠ '\n')
  let (body, after) := documentLines mark tabs (below.length + 1) (below.drop 1)
  let parts ← if isQuoted then some [.quoted body]
    else (expandable? none (body.length + 1) [] body).map (·.1)
  some (parts, line ++ '\n' :: after)

/-- A redirection after the number of its stream, if one is next. -/
def redirect? (stream : Option Nat) (cs : List Char) : Option (Redirect × List Char) :=
  match cs with
  | '<' :: '<' :: '-' :: rest => (document? rest true).map fun (w, r) => (.document (stream.getD 0) w, r)
  | '<' :: '<' :: rest => (document? rest false).map fun (w, r) => (.document (stream.getD 0) w, r)
  | '<' :: '&' :: rest => (nextWord? rest).map fun (w, r) => (.duplicate (stream.getD 0) w, r)
  | '<' :: rest => (nextWord? rest).map fun (w, r) => (.read (stream.getD 0) w, r)
  | '>' :: '>' :: rest => (nextWord? rest).map fun (w, r) => (.write (stream.getD 1) w true, r)
  | '>' :: '&' :: rest => (nextWord? rest).map fun (w, r) => (.duplicate (stream.getD 1) w, r)
  | '>' :: '|' :: rest => (nextWord? rest).map fun (w, r) => (.write (stream.getD 1) w false, r)
  | '>' :: rest => (nextWord? rest).map fun (w, r) => (.write (stream.getD 1) w false, r)
  | _ => none

/-- The number of a stream right before a redirection. -/
def streamNumber? (cs : List Char) : Option (Nat × List Char) :=
  match cs with
  | d :: c :: rest =>
    if d.isDigit ∧ (c = '<' ∨ c = '>') then some (d.toNat - '0'.toNat, c :: rest) else none
  | _ => none

/-- The assignment that a word writes. -/
def assignment? (w : Word) : Option (String × Word) :=
  match w with
  | .plain text :: parts =>
    match text.span (· ≠ '=') with
    | (c :: name, _ :: value) =>
      if isNameStart c ∧ name.all isNamePart then
        some (String.ofList (c :: name), if value.isEmpty then parts else .plain value :: parts)
      else none
    | _ => none
  | _ => none

/-- A group of commands that opens a text. -/
def group? (cs : List Char) : Option (Group × List Char) :=
  match cs with
  | '(' :: rest =>
    (closing? '(' ')' (rest.length + 1) 0 [] rest).map fun (body, rest) => (⟨body, true⟩, rest)
  | '{' :: c :: rest =>
    if c = ' ' ∨ c = '\t' ∨ c = '\n' then
      (closing? '{' '}' (rest.length + 1) 0 [] rest).map fun (body, rest) => (⟨body, false⟩, rest)
    else none
  | _ => none

/-- A command; nothing where the script is malformed. -/
def command? : Nat → Command → List Char → Option (Command × List Char)
  | 0, _, _ => none
  | fuel + 1, c, cs =>
    match dropSpaces cs with
    | [] => some (c, [])
    | '#' :: rest => some (c, rest.dropWhile (· ≠ '\n'))
    | d :: rest =>
      let (stream, text) := match streamNumber? (d :: rest) with
        | some (n, text) => (some n, text)
        | none => (none, d :: rest)
      match text with
      | [] => some (c, [])
      | e :: _ =>
        if e = '<' ∨ e = '>' then
          (redirect? stream text).bind fun (r, rest) =>
            command? fuel { c with redirects := c.redirects ++ [r] } rest
        else if (e = '(' ∨ e = '{') ∧ c = { line := c.line } ∧ (group? text).isSome then
          (group? text).bind fun (g, rest) => command? fuel { c with group := some g } rest
        else if endsWord e then some (c, text)
        else if c.group.isSome then none
        else
          (nextWord? text).bind fun (w, rest) =>
            match (if c.words.isEmpty then assignment? w else none) with
            | some a => command? fuel { c with assignments := c.assignments ++ [a] } rest
            | none => command? fuel { c with words := c.words ++ [w] } rest

/-- Whether a command has nothing in it. -/
def Command.isEmpty (c : Command) : Bool :=
  c.group.isNone && c.words.isEmpty && c.assignments.isEmpty && c.redirects.isEmpty

/-- Text without the blanks and line breaks at its beginning. -/
def dropLines (cs : List Char) : List Char :=
  cs.dropWhile fun c => c == ' ' || c == '\t' || c == '\n'

/-- The commands of a pipeline. -/
def commands? (line : List Char → Nat) : Nat → List Char → Option (List Command × List Char)
  | 0, _ => none
  | fuel + 1, cs => do
    let (c, rest) ← command? (cs.length + 1) { line := line cs } cs
    if c.isEmpty then none
    else
      match rest with
      | '|' :: '|' :: _ => some ([c], rest)
      | '|' :: rest =>
        let (more, rest) ← commands? line fuel (dropLines rest)
        some (c :: more, rest)
      | _ => some ([c], rest)

/-- An exclamation mark before a pipeline. -/
def negation (cs : List Char) : Bool × List Char :=
  match dropSpaces cs with
  | '!' :: ' ' :: rest => (true, rest)
  | cs => (false, cs)

/-- What joins a pipeline to the next. -/
def connector? (cs : List Char) : Option (Condition × List Char) :=
  match cs with
  | '&' :: '&' :: rest => some (.afterSuccess, dropLines rest)
  | '|' :: '|' :: rest => some (.afterFailure, dropLines rest)
  | ';' :: rest => some (.always, rest)
  | '\n' :: rest => some (.always, rest)
  | [] => some (.always, [])
  | _ => none

/-- Text without blanks, line breaks and comments at its beginning. -/
def dropEmpty : Nat → List Char → List Char
  | 0, cs => cs
  | fuel + 1, cs =>
    match dropLines cs with
    | '#' :: rest => dropEmpty fuel (rest.dropWhile (· ≠ '\n'))
    | cs => cs

/-- The pipelines of a script; nothing if it is malformed. -/
def pipelines? (line : List Char → Nat) : Nat → Condition → List Char → Option (List Pipeline)
  | 0, _, _ => none
  | fuel + 1, condition, cs =>
    match dropEmpty (cs.length + 1) cs with
    | [] => if condition = .always then some [] else none
    | cs => do
      let (negated, cs) := negation cs
      let (commands, rest) ← commands? line (cs.length + 1) cs
      let (next, rest) ← connector? (dropSpaces rest)
      let more ← pipelines? line fuel next rest
      some (⟨condition, negated, commands⟩ :: more)

/-- The script that a text writes. -/
def read? (text : List Char) : Option (List Pipeline) :=
  let lines := text.count '\n'
  pipelines? (fun rest => lines - rest.count '\n' + 1) (text.length + 1) .always text

end Shell
end ElementBuild
