/-
# The recursive core of the grammar

Expressions, patterns and statements refer to one another.  The productions that
close those circles form a record, `Grammar`; every other production is a plain
function over such a record, and `Script.Grammar.Core` ties the knot.  The record
for `n + 1` uses the record for `n`, so a record reads inputs nested as deep as its
number.
-/
import ElementBuild.Script.Reader
import ElementBuild.Script.Syntax

namespace ElementBuild
namespace Script

/-- The productions through which the grammar is recursive. -/
structure Grammar where
  /-- A bound on the rounds of a repetition. -/
  fuel : Nat
  /-- An expression without commas. -/
  assignment : Context → Reader Expr
  /-- An operand of a binary operator. -/
  unary : Context → Reader Expr
  /-- A left-hand side: members, calls and `new` expressions. -/
  leftHandSide : Context → Reader Expr
  /-- A member expression or `new` expression, without a call after it. -/
  member : Context → Reader Expr
  /-- The operators that bind tighter than a bound, after a left operand. -/
  operators : Context → Expr → Nat → Reader Expr
  /-- A binding pattern or a name. -/
  binding : Context → Reader Pattern
  /-- A statement, or also a declaration. -/
  statement : Context → Bool → Reader (List ImportCall)

namespace Grammar

open Reader

variable (g : Grammar)

/-- The context inside brackets and parentheses. -/
def inside (ctx : Context) : Context := { ctx with includeIn := true }

/-- An expression, possibly with commas. -/
def expression (ctx : Context) : Reader Expr := do
  let first ← g.assignment ctx
  if ← at? .comma then
    let (calls, inits) ← loop g.fuel (fun (calls, inits) => do
      if ← eat .comma then
        let e ← g.assignment ctx
        return ((calls ++ e.calls, inits ++ e.initializers), true)
      else return ((calls, inits), false)) (first.calls, first.initializers)
    return .leaf ⟨first.span.start, ← lastStop⟩ .other calls inits
  else return first

/-- Notes the properties of an expression that only a pattern may have. -/
def settleInitializers (e : Expr) : Reader Unit :=
  e.initializers.forM fun offset => note .assignmentProperty offset

/-- Takes an expression as a pattern. -/
def adopt (fitness : Fitness) : Reader Unit := do
  fitness.noted.forM fun f => note f.fault f.offset
  match fitness.fatal with
  | some f => fail f.fault f.offset
  | none => return

/-- An argument or element: an expression, possibly spread. -/
def spreadable (ctx : Context) : Reader (Option Nat × Expr) := do
  let start ← here
  if ← eat .ellipsis then
    return (some start, ← g.assignment (inside ctx))
  else return (none, ← g.assignment ctx)

/-- Arguments in parentheses; those of `import` must not end in a comma. -/
def arguments (ctx : Context) (ofImport : Bool) : Reader (List Expr) := do
  let start ← here
  expect .parenOpen
  let args ← loop g.fuel (fun (args : List Expr) => do
    if ← at? .parenClose then return (args, false)
    else
      let comma ← if args.isEmpty then pure false else do expect .comma; pure true
      if comma && (← at? .parenClose) then
        if ofImport then fail .trailingCommaInImport start
        else return (args, false)
      else
        let (_, e) ← g.spreadable (inside ctx)
        return (e :: args, true)) []
  expect .parenClose
  return args.reverse

end Grammar
end Script
end ElementBuild
