/-
# Primary expressions

Literals, names, arrays, objects, templates, parentheses and arrow functions,
function and class expressions.  What stands in parentheses is read as
expressions; when an arrow follows, they are taken as patterns.
-/
import ElementBuild.Script.Grammar.Class

namespace ElementBuild
namespace Script
namespace Grammar

open Reader

variable (g : Grammar)

/-- An expression that is no pattern and holds none. -/
def plain (start : Nat) (form : Form) (calls : List ImportCall) : Reader Expr := do
  return .leaf ⟨start, ← lastStop⟩ form calls []

/-! ### Arrays and objects -/

/-- How well an element of an array or a property's value would serve as a
pattern. -/
structure Parts where
  calls : List ImportCall := []
  initializers : List Nat := []
  asTarget : Fitness := {}
  asBinding : Fitness := {}
  /-- Where a spread element starts that nothing followed so far. -/
  spread : Option Nat := none

namespace Parts

/-- Adds a fault to both readings as a pattern. -/
def blemish (p : Parts) (fault : Fault) (offset : Nat) : Parts :=
  let f : Fitness := { noted := [⟨fault, offset⟩] }
  { p with asTarget := p.asTarget.and f, asBinding := p.asBinding.and f }

/-- Adds a part that no pattern may have. -/
def spoil (p : Parts) (offset : Nat) (calls : List ImportCall) : Parts :=
  let f : Fitness := { fatal := some ⟨.notPattern, offset⟩ }
  { p with
    calls := p.calls ++ calls
    asTarget := p.asTarget.and f, asBinding := p.asBinding.and f, spread := none }

/-- Adds an expression that stands where a pattern would. -/
def add (p : Parts) (e : Expr) (spread : Option Nat) : Parts :=
  { p with
    calls := p.calls ++ e.calls
    initializers := p.initializers ++ e.initializers
    asTarget := p.asTarget.and e.asTarget
    asBinding := p.asBinding.and e.asBinding
    spread }

/-- A spread element before other elements must not stay in a pattern. -/
def closeSpread (p : Parts) : Parts :=
  match p.spread with
  | some offset => { p.blemish .restNotLast offset with spread := none }
  | none => p

/-- The expression made of the parts. -/
def toExpr (p : Parts) (span : Span) (form : Form) : Expr :=
  { span, form
    calls := p.calls, initializers := p.initializers
    asTarget := p.asTarget, asBinding := p.asBinding }

end Parts

/-- An array literal. -/
def arrayLiteral (ctx : Context) : Reader Expr := do
  let start ← here
  expect .bracketOpen
  let parts ← loop g.fuel (fun (parts : Parts) => do
    if (← atEnd) || (← at? .bracketClose) then return (parts, false)
    else if ← eat .comma then return (parts.closeSpread, true)
    else
      let (spread, e) ← g.spreadable (inside ctx)
      let parts := parts.closeSpread.add e spread
      if ← at? .bracketClose then return (parts, true)
      else
        expect .comma
        let comma ← lastStart
        if spread.isSome && (← at? .bracketClose) then
          return (parts.blemish .commaAfterRest comma, true)
        else return (parts, true)) {}
  expect .bracketClose
  return parts.toExpr ⟨start, ← lastStop⟩ .array

/-- One property of an object literal. -/
def property (ctx : Context) (parts : Parts) : Reader Parts := do
  let start ← here
  let methodContext : Context := { ctx with allowSuper := true, inField := false }
  if ← eat .ellipsis then
    let e ← g.assignment (inside ctx)
    return parts.closeSpread.add e (some start)
  else
  let parts := parts.closeSpread
  if ← eat (.binary .mul) then
    let (_, keyCalls) ← g.propertyName ctx
    let (calls, _) ← g.functionRest methodContext false true
    return parts.spoil start (keyCalls ++ calls)
  else
    let (key, keyCalls) ← g.propertyName ctx
    if ← eat .colon then
      let e ← g.assignment (inside ctx)
      return { parts with calls := parts.calls ++ keyCalls }.add e none
    else if ← at? .parenOpen then
      let (calls, _) ← g.functionRest methodContext false false
      return parts.spoil start (keyCalls ++ calls)
    else
      match key with
      | .word w offset =>
        if ← eat .question then note .trailingComma (← lastStart)
        if (← at? (.assign none)) || (← at? .comma) || (← at? .braceClose) then
          if isReserved w then note .reservedShorthand offset
          if ← eat (.assign none) then
            let e ← g.assignment (inside ctx)
            return { parts with
              calls := parts.calls ++ e.calls, initializers := parts.initializers ++ [start] }
          else return parts.add (.leaf ⟨offset, offset⟩ (.name w) [] []) none
        else if w == "get" || w == "set" then
          let (key', keyCalls') ← g.propertyName ctx
          let (calls, count) ← g.functionRest methodContext false false
          if w == "get" && count != 0 then note .getterParameter key'.offset
          if w == "set" && count != 1 then note .setterParameter key'.offset
          return parts.spoil start (keyCalls' ++ calls)
        else if w == "async" then
          let isGenerator ← eat (.binary .mul)
          let (_, keyCalls') ← g.propertyName ctx
          let (calls, _) ← g.functionRest methodContext true isGenerator
          return parts.spoil start (keyCalls' ++ calls)
        else unexpected "... , *,  (, [, :, , ?, = or an identifier"
      | _ => unexpected "identifier"

/-- An object literal. -/
def objectLiteral (ctx : Context) : Reader Expr := do
  let start ← here
  expect .braceOpen
  let parts ← loop g.fuel (fun (parts : Parts) => do
    if ← eat .braceClose then return (parts, false)
    else
      let parts ← g.property (inside ctx) parts
      if ← at? .braceClose then return (parts, true)
      else
        expect .comma
        let comma ← lastStart
        if parts.spread.isSome && (← at? .braceClose) then
          return (parts.blemish .commaAfterRest comma, true)
        else return (parts, true)) {}
  return parts.toExpr ⟨start, ← lastStop⟩ .object

/-! ### Templates -/

/-- Reads the text after a backquote or after the brace that closes a
substitution; the text is the rest of that token.  Says whether a substitution
follows. -/
def templateText (tagged : Bool) (opening : Nat) : Reader Bool := do
  settle
  let s ← get
  match s.current.rest with
  | [] =>
    set { s with lastStart := s.current.start, lastStop := s.current.stop }
    throw ⟨.unexpectedEnd, s.current.stop⟩
  | rest =>
    let chunk := templateChunk rest s.current.stop
    match chunk.ending with
    | .unterminated => throw ⟨.unterminatedTemplate, opening⟩
    | ending =>
      match chunk.fault with
      | some f => if !tagged then throw f
      | none => pure ()
      let mark := if ending == .closed then chunk.stop - 1 else chunk.stop - 2
      set { s with
        lastStart := mark, lastStop := chunk.stop, current := lexeme chunk.rest chunk.stop }
      return ending == .substitution

/-- A template from its backquote on. -/
def templateLiteral (ctx : Context) (tagged : Bool) : Reader (List ImportCall) := do
  let start ← here
  let more ← templateText tagged start
  let (calls, _) ← loop g.fuel (fun (calls, more) => do
    if !more then return ((calls, false), false)
    else
      let e ← g.expression (inside ctx)
      if ← at? .braceClose then
        let more ← templateText tagged start
        return ((calls ++ e.calls, more), true)
      else
        expect .braceClose
        return ((calls, false), false)) (([] : List ImportCall), more)
  return calls

/-! ### Regular expressions -/

/-- A regular expression whose opening slash is next. -/
def regexLiteral : Reader Expr := do
  let start ← here
  let s ← get
  let body := match s.current.token with
    | .punctuator (.assign _) => '=' :: s.current.rest
    | _ => s.current.rest
  let found := regexLexeme s.current body
  match found.token with
  | .regex _ flags =>
    set { s with current := found }
    bump
    let flags := flags.toList
    if flags.any fun f => !"dgimsuyv".toList.contains f then note .unknownRegexFlags start
    match flags.find? fun f => flags.count f > 1 with
    | some f => note (.duplicatedRegexFlag f) start
    | none => pure ()
    plain start .other []
  | .broken f =>
    set { s with current := found }
    throw f
  | _ => fail .expectedExpression start

/-! ### Parentheses and arrow functions -/

/-- What stands in parentheses. -/
structure Parenthesized where
  /-- The elements, last first, each with the place of its spread mark. -/
  items : List (Option Nat × Expr) := []
  trailingComma : Option Nat := none

/-- Elements in parentheses. -/
def parenthesized (ctx : Context) : Reader Parenthesized := do
  expect .parenOpen
  let found ← loop g.fuel (fun (found : Parenthesized) => do
    if (← atEnd) || (← at? .parenClose) then return (found, false)
    else
      let start ← here
      modify fun s => { s with arrowStart := some start }
      let item ← g.spreadable (inside ctx)
      let found := { found with items := item :: found.items }
      if ← at? .parenClose then return (found, true)
      else
        expect .comma
        let comma ← lastStart
        let found := { found with
          trailingComma := if ← at? .parenClose then some comma else none }
        return (found, true)) {}
  expect .parenClose
  return found

/-- Takes the elements as parameters; a spread element has to be the last. -/
def adoptParameters (found : Parenthesized) : Reader Unit := do
  let count := found.items.length
  found.items.reverse.zipIdx.forM fun ((spread, e), i) => do
    adopt e.asBinding
    match spread with
    | some offset =>
      if i + 1 < count then note .restNotLast offset
      else
        match found.trailingComma with
        | some comma => note .commaAfterRest comma
        | none => pure ()
    | none => pure ()

/-- Parentheses, or an arrow function if an arrow follows; after `async`, a call
of that name otherwise. -/
def parenthesesOrArrow (ctx : Context) (canBeArrow : Bool) (asyncStart : Option Nat) :
    Reader Expr := do
  let start := asyncStart.getD (← here)
  let found ← g.parenthesized ctx
  let calls := found.items.reverse.flatMap (·.2.calls)
  let initializers := found.items.reverse.flatMap (·.2.initializers)
  if ← at? .arrow then
    if ← afterBreak then fail .lineBreakBeforeArrow start
    if !canBeArrow then fail .arrowNotAllowed start
    expect .arrow
    adoptParameters found
    let hasBraces ← at? .braceOpen
    let body ← g.arrowBody ctx asyncStart.isSome
    let e ← plain start .arrow (calls ++ body)
    match (← token) with
    | .punctuator (.binary _) =>
      if hasBraces then
        note .expectedSemicolon (← blame)
        let e ← g.operators ctx e 0
        unless ← atStatementEnd do note .expectedSemicolon (← blame)
        return e
      else return e
    | _ => return e
  else if asyncStart.isSome then
    return .leaf ⟨start, ← lastStop⟩ .call calls initializers
  else
    match found.items with
    | [] => fail .emptyParentheses start
    | items =>
      match items.reverse.find? (·.1.isSome) with
      | some (some offset, _) => fail .spreadInParentheses offset
      | _ =>
        match found.trailingComma with
        | some comma => note .trailingComma comma
        | none => pure ()
        let inner := match items with
          | [(_, e)] => e.form
          | _ => .other
        return .leaf ⟨start, ← lastStop⟩ (.paren inner) calls initializers

/-- An arrow function after its single parameter. -/
def arrowAfterName (ctx : Context) (start : Nat) (isAsync : Bool) : Reader Expr := do
  let calls ← g.arrowBody ctx isAsync
  plain start .arrow calls

/-- A name, or an arrow function whose only parameter it is. -/
def nameOrArrow (ctx : Context) (canBeArrow : Bool) : Reader Expr := do
  let (w, start) ← identifier ctx
  let broken ← afterBreak
  if canBeArrow && w == "async" && !broken && (← atIdentifier) then
    let _ ← bindingIdentifier ctx
    expect .arrow
    g.arrowAfterName ctx start true
  else if canBeArrow && !broken && (← at? .arrow) then
    bump
    if w == "eval" || w == "arguments" then note .reservedBinding start
    g.arrowAfterName ctx start false
  else return .leaf ⟨start, ← lastStop⟩ (.name w) [] []

/-- Whether `function` follows the next token on its line. -/
def beforeFunction : Reader Bool := do
  let next ← peek
  return next.token == .word "function" && !next.afterBreak

/-- A primary expression. -/
def primary (ctx : Context) : Reader Expr := do
  let start ← here
  let canBeArrow := (← get).arrowStart == some start
  match (← token) with
  | .word "this" =>
    bump
    plain start .other []
  | .word "null" =>
    bump
    plain start .other []
  | .word "true" =>
    bump
    plain start .other []
  | .word "false" =>
    bump
    plain start .other []
  | .word "async" =>
    if ← beforeFunction then
      bump
      let (_, calls) ← g.function ctx true true .optional
      plain start .other calls
    else
      let next ← peek
      if canBeArrow && next.token == .punctuator .parenOpen && !next.afterBreak then
        bump
        g.parenthesesOrArrow ctx canBeArrow (some start)
      else g.nameOrArrow ctx canBeArrow
  | .word "function" =>
    let (_, calls) ← g.function ctx false true .optional
    plain start .other calls
  | .word "class" =>
    let (_, calls) ← g.classDefinition ctx .optional
    plain start .other calls
  | .number _ =>
    bump
    plain start .other []
  | .bigInteger _ =>
    bump
    plain start .other []
  | .string _ _ =>
    bump
    plain start .string []
  | .punctuator .bracketOpen => g.arrayLiteral ctx
  | .punctuator .braceOpen => g.objectLiteral ctx
  | .punctuator .parenOpen => g.parenthesesOrArrow ctx canBeArrow none
  | .punctuator .backquote =>
    let calls ← g.templateLiteral ctx false
    plain start .other calls
  | .punctuator (.binary .div) => regexLiteral
  | .punctuator (.assign (some .div)) => regexLiteral
  | .punctuator .hash =>
    bump
    let _ ← identifierName
    plain start .other []
  | .word w =>
    if w == "let" || !isReserved w then g.nameOrArrow ctx canBeArrow
    else fail .expectedExpression (← blame)
  | _ => fail .expectedExpression (← blame)

end Grammar
end Script
end ElementBuild
