/-
# Property names, patterns, parameters and function bodies
-/
import ElementBuild.Script.Grammar.Basic

namespace ElementBuild
namespace Script

/-- The name of a property. -/
inductive PropertyName where
  /-- A word, and where it starts. -/
  | word (text : String) (offset : Nat)
  | string (value : String) (offset : Nat)
  | other (offset : Nat)
  deriving Repr

namespace PropertyName

/-- Where a name starts. -/
def offset : PropertyName → Nat
  | word _ n => n
  | string _ n => n
  | other n => n

/-- Whether a method of this name makes the objects of its class. -/
def isConstructor : PropertyName → Bool
  | word w _ => w == "constructor"
  | string s _ => s == "constructor"
  | other _ => false

end PropertyName

namespace Grammar

open Reader

variable (g : Grammar)

/-- The name of a property, and the calls in it if it is computed. -/
def propertyName (ctx : Context) : Reader (PropertyName × List ImportCall) := do
  let start ← here
  match (← need) with
  | .word w =>
    bump
    return (.word w start, [])
  | .string value _ =>
    bump
    return (.string value start, [])
  | .number _ =>
    bump
    return (.other start, [])
  | .bigInteger _ =>
    bump
    return (.other start, [])
  | .punctuator .bracketOpen =>
    bump
    let e ← g.assignment (inside ctx)
    expect .bracketClose
    return (.other start, e.calls)
  | _ => unexpected "identifier, string literal, numeric literal or [ for the computed key"

/-- A pattern with an optional default value. -/
def bindingElement (ctx : Context) : Reader Pattern := do
  let target ← g.binding ctx
  if ← eat (.assign none) then
    let value ← g.assignment (inside ctx)
    settleInitializers value
    return { target with isName := false, calls := target.calls ++ value.calls }
  else return target

/-- An array pattern. -/
def arrayBinding (ctx : Context) : Reader Pattern := do
  let start ← here
  expect .bracketOpen
  let (calls, _) ← loop g.fuel (fun (calls, rest) => do
    if (← atEnd) || (← at? .bracketClose) then return ((calls, rest), false)
    else if ← eat .comma then return ((calls, rest), true)
    else
      match rest with
      | some offset => note .restNotLast offset
      | none => pure ()
      let start ← here
      let isRest ← eat .ellipsis
      let element ← if isRest then g.binding ctx else g.bindingElement ctx
      unless ← at? .bracketClose do
        expect .comma
        if isRest && (← at? .bracketClose) then note .commaAfterRest (← lastStart)
      return ((calls ++ element.calls, if isRest then some start else rest), true))
    (([] : List ImportCall), (none : Option Nat))
  expect .bracketClose
  return ⟨start, false, calls⟩

/-- One property of an object pattern; the offset of a rest element. -/
def bindingProperty (ctx : Context) : Reader (List ImportCall × Option Nat) := do
  let start ← here
  if ← eat .ellipsis then
    let target ← g.binding ctx
    return (target.calls, some start)
  else
    let (key, keyCalls) ← g.propertyName ctx
    if ← eat .colon then
      let value ← g.bindingElement ctx
      return (keyCalls ++ value.calls, none)
    else
      match key with
      | .word w offset =>
        if ← eat (.assign none) then
          let value ← g.assignment (inside ctx)
          settleInitializers value
          return (value.calls, none)
        else
          if isReserved w then note .reservedShorthand offset
          return ([], none)
      | _ => unexpected "an identifier"

/-- An object pattern. -/
def objectBinding (ctx : Context) : Reader Pattern := do
  let start ← here
  expect .braceOpen
  let calls ← loop g.fuel (fun calls => do
    if ← eat .braceClose then return (calls, false)
    else
      let (more, rest) ← g.bindingProperty ctx
      unless ← at? .braceClose do
        expect .comma
        match rest with
        | some offset =>
          if ← at? .braceClose then note .commaAfterRest (← lastStart)
          else note .restNotLast offset
        | none => pure ()
      return (calls ++ more, true)) []
  return ⟨start, false, calls⟩

/-- A binding pattern or a name. -/
def bindingTarget (ctx : Context) : Reader Pattern := do
  match (← need) with
  | .word _ =>
    let (_, start) ← bindingIdentifier ctx
    return ⟨start, true, []⟩
  | .punctuator .bracketOpen => g.arrayBinding ctx
  | .punctuator .braceOpen => g.objectBinding ctx
  | _ => unexpected "yield, an identifier, [ or \x7b"

/-- Parameters in parentheses: their calls and their number. -/
def parameters (ctx : Context) : Reader (List ImportCall × Nat) := do
  expect .parenOpen
  let (calls, count, _) ← loop g.fuel (fun (calls, count, rest) => do
    if (← atEnd) || (← at? .parenClose) then return ((calls, count, rest), false)
    else
      match rest with
      | some offset => note .restNotLast offset
      | none => pure ()
      let start ← here
      let isRest ← eat .ellipsis
      let element ← if isRest then g.binding ctx else g.bindingElement ctx
      if isRest && (← at? (.assign none)) then
        bump
        let _ ← g.assignment (inside ctx)
        note .restInitializer element.start
      unless ← at? .parenClose do
        expect .comma
        if isRest && (← at? .parenClose) then note .commaAfterRest (← lastStart)
      return ((calls ++ element.calls, count + 1, if isRest then some start else rest), true))
    (([] : List ImportCall), 0, (none : Option Nat))
  expect .parenClose
  return (calls, count)

/-- Statements up to the closing brace. -/
def statementsInBraces (ctx : Context) : Reader (List ImportCall) := do
  expect .braceOpen
  let calls ← loop g.fuel (fun calls => do
    match (← whole) with
    | none =>
      note (.expected "\x7d" "<eof>") (← blame)
      return (calls, false)
    | some (.punctuator .braceClose) =>
      bump
      return (calls, false)
    | some _ =>
      let more ← g.statement ctx true
      return (more :: calls, true)) []
  return calls.reverse.flatten

/-- The context of a function's body. -/
def bodyContext (ctx : Context) (isAsync isGenerator isArrow : Bool) : Context :=
  { ctx with
    inFunction := true, inAsync := isAsync, inGenerator := isGenerator, inParameters := false
    includeIn := if isArrow then ctx.includeIn else true
    inStaticBlock := if isArrow then ctx.inStaticBlock else false
    breakAllowed := false, continueAllowed := false, labels := []
    inPlainFunction := if isArrow then ctx.inPlainFunction else true }

/-- A function's body in braces. -/
def functionBody (ctx : Context) (isAsync isGenerator : Bool) : Reader (List ImportCall) :=
  g.statementsInBraces (bodyContext ctx isAsync isGenerator false)

/-- The body of an arrow function, in braces or an expression. -/
def arrowBody (ctx : Context) (isAsync : Bool) : Reader (List ImportCall) := do
  let ctx' := bodyContext ctx isAsync false true
  if ← at? .braceOpen then g.statementsInBraces (inside ctx')
  else return (← g.assignment ctx').calls

/-- Parameters and body of a function or method: the calls, and the number of
parameters. -/
def functionRest (ctx : Context) (isAsync isGenerator : Bool) :
    Reader (List ImportCall × Nat) := do
  let inParameters : Context :=
    { ctx with
      inParameters := true, inFunction := false, inAsync := isAsync, inGenerator := isGenerator
      includeIn := true, inStaticBlock := false }
  let (before, count) ← g.parameters inParameters
  let body ← g.functionBody ctx isAsync isGenerator
  return (before ++ body, count)

/-- How a function or class is named. -/
inductive Naming where
  | required
  | optional
  deriving DecidableEq

/-- The name of a function or class. -/
def optionalName (ctx : Context) (naming : Naming) : Reader (Option String) := do
  if naming == .required || (← atIdentifier) then
    return some (← bindingIdentifier ctx).1
  else return none

/-- A function from its keyword on; `isExpression` decides in which context its
name is read. -/
def function (ctx : Context) (isAsync isExpression : Bool) (naming : Naming) :
    Reader (Option String × List ImportCall) := do
  expectWord "function"
  let isGenerator ← eat (.binary .mul)
  let inner : Context := { ctx with allowSuper := false, inField := false }
  let nameContext : Context :=
    if isExpression then { inner with inAsync := isAsync, inGenerator := isGenerator } else inner
  let name ← optionalName nameContext naming
  let (calls, _) ← g.functionRest inner isAsync isGenerator
  return (name, calls)

end Grammar
end Script
end ElementBuild
