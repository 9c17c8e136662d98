/-
# Classes

A class's body is visited before its heritage.
-/
import ElementBuild.Script.Grammar.Function

namespace ElementBuild
namespace Script
namespace Grammar

open Reader

variable (g : Grammar)

/-- The name of a class member. -/
def memberName (ctx : Context) : Reader (PropertyName × List ImportCall) := do
  if ← at? .hash then
    let start ← here
    bump
    let _ ← privateName
    return (.other start, [])
  else g.propertyName ctx

/-- Whether a field ends or gets its value here. -/
def atFieldEnd (withInsertion : Bool) : Reader Bool := do
  match (← token) with
  | .punctuator (.assign none) => return true
  | .punctuator .braceClose => return true
  | .punctuator .semicolon => return true
  | _ => if withInsertion then atStatementEnd else return false

/-- The value of a field, and the end of its declaration. -/
def fieldRest (ctx : Context) (key : PropertyName) : Reader (List ImportCall) := do
  if key.isConstructor then fail .fieldNamedConstructor key.offset
  let calls ←
    if ← eat (.assign none) then do
      let e ← g.assignment
        { ctx with inField := true, includeIn := true, inAsync := false, inGenerator := false }
      settleInitializers e
      pure e.calls
    else pure []
  unless ← eatStatementEnd do note .expectedSemicolon (← blame)
  return calls

/-- A method after its name. -/
def methodRest (ctx : Context) (isAsync isGenerator : Bool) : Reader (List ImportCall × Nat) :=
  g.functionRest { ctx with inField := false } isAsync isGenerator

/-- An accessor after its keyword. -/
def accessor (ctx : Context) (isGetter : Bool) (keyOffset : Nat) : Reader (List ImportCall) := do
  let (key, keyCalls) ← g.memberName ctx
  if key.isConstructor then note .accessorConstructor keyOffset
  let (calls, count) ← g.methodRest ctx false false
  if isGetter && count != 0 then note .getterParameter keyOffset
  if !isGetter && count != 1 then note .setterParameter keyOffset
  return keyCalls ++ calls

/-- A member of a class: its calls, and whether it is the constructor. -/
def classMember (ctx : Context) : Reader (List ImportCall × Bool) := do
  let start ← here
  let isStatic ← eatWord "static"
  if isStatic && (← at? .parenOpen) then
    return ((← g.methodRest ctx false false).1, false)
  else if isStatic && (← atFieldEnd false) then
    return (← g.fieldRest ctx (.word "static" start), false)
  else if isStatic && (← at? .braceOpen) then
    let calls ← g.statementsInBraces
      { ctx with
        inStaticBlock := true, inField := true, inFunction := false, inAsync := false
        inGenerator := false, breakAllowed := false, continueAllowed := false, labels := []
        includeIn := true }
    return (calls, false)
  else if ← eat (.binary .mul) then
    let (key, keyCalls) ← g.memberName ctx
    if key.isConstructor && !isStatic then note .generatorConstructor start
    return (keyCalls ++ (← g.methodRest ctx false true).1, false)
  else
    let (key, keyCalls) ← g.memberName ctx
    if ← at? .parenOpen then
      return (keyCalls ++ (← g.methodRest ctx false false).1, key.isConstructor && !isStatic)
    else
      let starOnNextLine := (← afterBreak) && (← at? (.binary .mul))
      let accessorWord : Option String ←
        match key with
        | .word w _ => do
          if (w == "get" || w == "set") && !(← atFieldEnd false) && !starOnNextLine then
            pure (some w)
          else pure none
        | _ => pure none
      if accessorWord.isNone && (← atFieldEnd true) then
        return (keyCalls ++ (← g.fieldRest ctx key), false)
      else
        let isAsync := match key with
          | .word w _ => w == "async"
          | _ => false
        if isAsync && !(← afterBreak) then
          let isGenerator ← eat (.binary .mul)
          let (key, keyCalls) ← g.memberName ctx
          if key.isConstructor && !isStatic then note .asyncConstructor key.offset
          return (keyCalls ++ (← g.methodRest ctx true isGenerator).1, false)
        else
          match accessorWord with
          | some w => return (← g.accessor ctx (w == "get") key.offset, false)
          | none => unexpected "* for generator, private key, identifier or async"

/-- A class from its keyword on: its name and its calls. -/
def classDefinition (ctx : Context) (naming : Naming) :
    Reader (Option String × List ImportCall) := do
  expectWord "class"
  let name ← optionalName ctx naming
  let heritage ←
    if ← eatWord "extends" then do
      let e ← g.leftHandSide (inside ctx)
      pure e.calls
    else pure []
  if ← eatWord "extends" then
    note .secondExtends (← lastStart)
    let _ ← g.leftHandSide (inside ctx)
  expect .braceOpen
  let inner : Context :=
    { ctx with inClass := true, allowSuper := true, inField := false, inStaticBlock := false }
  let (body, _) ← loop g.fuel (fun (calls, hasConstructor) => do
    if (← atEnd) || (← at? .braceClose) then return ((calls, hasConstructor), false)
    else if ← eat .semicolon then return ((calls, hasConstructor), true)
    else
      let start ← here
      let (more, isConstructor) ← g.classMember inner
      if isConstructor && hasConstructor then note .secondConstructor start
      return ((more :: calls, hasConstructor || isConstructor), true))
    (([] : List (List ImportCall)), false)
  if ← atEnd then note (.expected "\x7d" "<eof>") (← blame)
  else expect .braceClose
  return (name, body.reverse.flatten ++ heritage)

end Grammar
end Script
end ElementBuild
