/-
# Statements and declarations

The test of a `do` loop is visited before its body.
-/
import ElementBuild.Script.Grammar.Expression

namespace ElementBuild
namespace Script
namespace Grammar

open Reader

variable (g : Grammar)

/-- The kinds of variable declarations. -/
inductive VariableKind where
  | variable
  | lexical
  | constant
  deriving DecidableEq

/-- One declarator: where it starts, whether it has an initializer, its calls. -/
structure Declarator where
  start : Nat
  initialized : Bool
  calls : List ImportCall

/-- A variable and its initializer; in the head of a loop there may be none. -/
def declarator (ctx : Context) (kind : VariableKind) (inHead : Bool) : Reader Declarator := do
  let start ← here
  if kind != .variable && (← word? "let") then
    unexpected "let is reserved in const, let, class declaration"
  let target ← g.binding ctx
  if inHead && ((← word? "in") || (← word? "of")) then return ⟨start, false, target.calls⟩
  else if ← eat (.assign none) then
    let e ← g.assignment ctx
    settleInitializers e
    return ⟨start, true, target.calls ++ e.calls⟩
  else
    if kind == .constant then note .constWithoutInitializer start
    else if !target.isName then note .patternWithoutInitializer start
    return ⟨start, false, target.calls⟩

/-- Skips to the end of a statement after a fault. -/
def skipToStatementEnd (ctx : Context) : Reader Unit := do
  let _ ← tryCatch (do let _ ← g.expression ctx; pure ()) fun _ => pure ()
  loop g.fuel (fun _ => do
    if ← eatStatementEnd then return ((), false)
    else
      bump
      match (← token) with
      | .broken _ => return ((), false)
      | _ => return ((), true)) ()

/-- A variable declaration from its keyword on; outside the head of a loop with
its end. -/
def declarators (ctx : Context) (inHead : Bool) : Reader (List Declarator) := do
  let kind : VariableKind := match (← token) with
    | .word "const" => .constant
    | .word "let" => .lexical
    | _ => .variable
  bump
  let ctx' := if kind != .variable || !inHead then inside ctx else ctx
  let declarators ← loop g.fuel (fun (ds : List Declarator) => do
    if ← at? .semicolon then
      note .trailingComma (← blame)
      return (ds, false)
    else
      let d ← g.declarator ctx' kind inHead
      return (d :: ds, ← eat .comma)) []
  if !inHead then
    unless ← eatStatementEnd do
      note .expectedSemicolon (← blame)
      g.skipToStatementEnd ctx
  return declarators.reverse

/-- Whether `let` before this token declares variables. -/
def followsLet : Token → Bool
  | .punctuator .braceOpen => true
  | .punctuator .bracketOpen => true
  | .word w => !reservedWords.contains w
  | _ => false

/-- Whether a variable declaration starts here. -/
def atVariables : Reader Bool := do
  match (← token) with
  | .word "var" => return true
  | .word "const" => return true
  | .word "let" => return followsLet (← peek).token
  | _ => return false

/-- A block. -/
def block (ctx : Context) : Reader (List ImportCall) := g.statementsInBraces ctx

/-- An expression in parentheses. -/
def condition (ctx : Context) : Reader (List ImportCall) := do
  expect .parenOpen
  let e ← g.expression (inside ctx)
  expect .parenClose
  return e.calls

/-- The context of a loop's body. -/
def loopContext (ctx : Context) : Context :=
  { ctx with breakAllowed := true, continueAllowed := true }

/-- An `if` statement. -/
def ifStatement (ctx : Context) : Reader (List ImportCall) := do
  expectWord "if"
  let test ← g.condition ctx
  let first ← g.statement ctx false
  if ← eatWord "else" then
    return test ++ first ++ (← g.statement ctx false)
  else return test ++ first

/-- A `do` loop. -/
def doStatement (ctx : Context) : Reader (List ImportCall) := do
  expectWord "do"
  let body ← g.statement (loopContext ctx) false
  expectWord "while"
  let test ← g.condition ctx
  let _ ← eatStatementEnd
  return test ++ body

/-- The rest of the head of a `for … in` or `for … of` loop; whether it is the
latter. -/
def eachHead (ctx : Context) : Reader (List ImportCall × Bool) := do
  if ← eatWord "of" then
    let e ← g.assignment (inside ctx)
    return (e.calls, true)
  else
    bump
    let e ← g.expression (inside ctx)
    return (e.calls, false)

/-- The rest of the head of a plain `for` loop. -/
def plainHead (ctx : Context) : Reader (List ImportCall) := do
  let test ←
    if ← eat .semicolon then pure []
    else do
      let e ← g.expression (inside ctx)
      expect .semicolon
      pure e.calls
  let update ←
    if ← at? .parenClose then pure []
    else do
      let e ← g.expression (inside ctx)
      pure e.calls
  return test ++ update

/-- The head of a `for` loop; whether it is a `for … of` loop. -/
def forHead (ctx : Context) : Reader (List ImportCall × Bool) := do
  if ← atVariables then
    let ds ← g.declarators { ctx with includeIn := false } true
    let calls := ds.flatMap (·.calls)
    let isOf ← word? "of"
    if isOf || (← word? "in") then
      match ds with
      | [d] => if d.initialized then note .initializerInHead d.start
      | ds => (ds.drop 1).forM fun d => note .severalVariablesInHead d.start
      let (more, isOf) ← g.eachHead ctx
      return (calls ++ more, isOf)
    else
      expect .semicolon
      return (calls ++ (← g.plainHead ctx), false)
  else if ← eat .semicolon then return (← g.plainHead ctx, false)
  else
    let e ← g.expression { ctx with includeIn := false }
    let isOf ← word? "of"
    if isOf || (← word? "in") then
      adopt e.asTarget
      let (more, isOf) ← g.eachHead ctx
      return (e.calls ++ more, isOf)
    else
      expect .semicolon
      settleInitializers e
      return (e.calls ++ (← g.plainHead ctx), false)

/-- A `for` loop. -/
def forStatement (ctx : Context) : Reader (List ImportCall) := do
  expectWord "for"
  let awaitStart ← here
  let isAwait ← eatWord "await"
  expect .parenOpen
  let (head, isOf) ← g.forHead ctx
  expect .parenClose
  let body ← g.statement (loopContext ctx) false
  if isAwait && !isOf then fail .awaitWithoutOf awaitStart
  return head ++ body

/-- A `switch` statement. -/
def switchStatement (ctx : Context) : Reader (List ImportCall) := do
  expectWord "switch"
  let subject ← g.condition ctx
  expect .braceOpen
  let ctx' : Context := { ctx with breakAllowed := true }
  let (calls, _) ← loop g.fuel (fun (calls, hasDefault) => do
    let isCase ← word? "case"
    let isDefault ← word? "default"
    if !isCase && !isDefault then return ((calls, hasDefault), false)
    else
      bump
      let test ←
        if isCase then do
          let e ← g.expression (inside ctx')
          pure e.calls
        else do
          if hasDefault then fail .severalDefaults (← blame)
          pure []
      expect .colon
      let body ← loop g.fuel (fun (body : List (List ImportCall)) => do
        if (← atEnd) || (← word? "case") || (← word? "default") || (← at? .braceClose) then
          return (body, false)
        else
          let more ← g.statement ctx' true
          return (more :: body, true)) []
      return ((calls ++ test ++ body.reverse.flatten, hasDefault || isDefault), true)) (subject, false)
  expect .braceClose
  return calls

/-- The handler of a `try` statement, if there is one. -/
def catchClause (ctx : Context) : Reader (Option (List ImportCall)) := do
  if ← eatWord "catch" then
    let parameter ←
      if ← eat .parenOpen then do
        let p ← g.binding ctx
        expect .parenClose
        pure p.calls
      else pure []
    return some (parameter ++ (← g.block ctx))
  else return none

/-- The finalizer of a `try` statement, if there is one. -/
def finallyClause (ctx : Context) : Reader (Option (List ImportCall)) := do
  if ← eatWord "finally" then return some (← g.block ctx) else return none

/-- A `try` statement. -/
def tryStatement (ctx : Context) : Reader (List ImportCall) := do
  expectWord "try"
  let body ← g.block ctx
  let handlerStart ← here
  let handler ← g.catchClause ctx
  let finalizer ← g.finallyClause ctx
  if handler.isNone && finalizer.isNone then note .expectedSemicolon handlerStart
  return body ++ handler.getD [] ++ finalizer.getD []

/-- A `break` or `continue` statement. -/
def jump (ctx : Context) : Reader Unit := do
  let start ← here
  let isBreak ← word? "break"
  bump
  if ← eatStatementEnd then
    if isBreak then unless ctx.breakAllowed do note .breakOutside start
    else unless ctx.continueAllowed do note .continueOutside start
  else
    let (label, labelStart) ← identifier ctx
    expectStatementEnd
    if isBreak then unless ctx.labels.contains label do note .breakLabel labelStart
    else if !ctx.continueAllowed then note .continueOutside start
    else unless ctx.labels.contains label do note .continueLabel labelStart

/-- A `return` statement. -/
def returnStatement (ctx : Context) : Reader (List ImportCall) := do
  let start ← here
  expectWord "return"
  let calls ←
    if ← atStatementEnd then pure []
    else do
      let e ← g.expression (inside ctx)
      settleInitializers e
      pure e.calls
  expectStatementEnd
  unless ctx.inFunction do note .returnNotAllowed start
  return calls

/-- A `throw` statement. -/
def throwStatement (ctx : Context) : Reader (List ImportCall) := do
  expectWord "throw"
  if ← afterBreak then fail .lineBreakAfterThrow (← blame)
  let e ← g.expression (inside ctx)
  expectStatementEnd
  return e.calls

/-- What a label stands before, its colon passed. -/
def labelled (ctx : Context) (label : String) (start : Nat) : Reader (List ImportCall) := do
  let ctx' : Context := { ctx with breakAllowed := true, labels := label :: ctx.labels }
  let calls ←
    if ← word? "function" then do
      let functionStart ← here
      let (_, calls) ← g.function ctx' false false .required
      note .labelledFunction functionStart
      pure calls
    else g.statement ctx' false
  if ctx.labels.contains label then note .duplicateLabel start
  return calls

/-- A statement that is an expression, or that a label stands before. -/
def expressionStatement (ctx : Context) : Reader (List ImportCall) := do
  let e ← g.expression (inside ctx)
  let isLabel ←
    match e.form with
    | .name _ => eat .colon
    | _ => pure false
  match e.form, isLabel with
  | .name w, true => g.labelled ctx w e.span.start
  | _, _ =>
    settleInitializers e
    if ← eatStatementEnd then return e.calls
    else
      match (← whole) with
      | some (.punctuator (.binary _)) =>
        note .expectedSemicolon (← blame)
        let e ← g.operators ctx e 0
        return e.calls
      | _ => fail .expectedStatementEnd (← blame)

/-- Whether `using` starts a declaration here. -/
def atUsing : Reader Bool := do
  if ← word? "using" then
    let next ← peek
    match next.token with
    | .word w => return !next.afterBreak && !isReserved w
    | _ => return false
  else return false

/-- A statement after the items that only a module may have. -/
def plainStatement (ctx : Context) (declarations : Bool) : Reader (List ImportCall) := do
  let start ← here
  match (← need) with
  | .word "break" => do jump ctx; return []
  | .word "continue" => do jump ctx; return []
  | .word "debugger" =>
    bump
    expectStatementEnd
    return []
  | .word "do" => g.doStatement ctx
  | .word "for" => g.forStatement ctx
  | .word "function" =>
    unless declarations do note .declarationNotAllowed start
    return (← g.function ctx false false .required).2
  | .word "class" =>
    unless declarations do note .declarationNotAllowed start
    return (← g.classDefinition ctx .required).2
  | .word "if" => g.ifStatement ctx
  | .word "return" => g.returnStatement ctx
  | .word "switch" => g.switchStatement ctx
  | .word "throw" => g.throwStatement ctx
  | .word "catch" =>
    note .expectedSemicolon start
    let _ ← tryCatch (do let _ ← g.catchClause ctx; pure ()) fun _ => pure ()
    let _ ← tryCatch (do let _ ← g.finallyClause ctx; pure ()) fun _ => pure ()
    return []
  | .word "finally" =>
    note .expectedSemicolon start
    let _ ← tryCatch (do let _ ← g.finallyClause ctx; pure ()) fun _ => pure ()
    return []
  | .word "try" => g.tryStatement ctx
  | .word "with" =>
    note .withInStrict start
    bump
    let subject ← g.condition ctx
    return subject ++ (← g.statement ctx false)
  | .word "while" =>
    bump
    let test ← g.condition ctx
    return test ++ (← g.statement (loopContext ctx) false)
  | .punctuator .braceOpen => g.block ctx
  | .punctuator .semicolon =>
    bump
    return []
  | t =>
    if t == .word "var" || (declarations && (← atVariables)) then
      return (← g.declarators ctx false).flatMap (·.calls)
    else if declarations && (← atUsing) then
      note .usingDisabled start
      return (← g.declarators ctx false).flatMap (·.calls)
    else if t == .word "async" && (← beforeFunction) then
      bump
      return (← g.function ctx true false .required).2
    else g.expressionStatement ctx

/-- A statement, or also a declaration.  Module items may not stand here, but
`import(…)` and `import.meta` may; after those no end of statement is asked
for. -/
def statementOrDeclaration (ctx : Context) (declarations : Bool) : Reader (List ImportCall) := do
  if ← word? "import" then
    let next ← peek
    if next.token == .punctuator .parenOpen || next.token == .punctuator .dot then
      let e ← g.expression ctx
      let _ ← eatStatementEnd
      return e.calls
    else fail .nestedModuleItem (← blame)
  else if ← word? "export" then fail .nestedModuleItem (← blame)
  else g.plainStatement (inside ctx) declarations

end Grammar
end Script
end ElementBuild
