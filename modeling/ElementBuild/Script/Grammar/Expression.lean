/-
# Expressions

From the tightest to the loosest: members and calls, `new`, postfix and prefix
operators, binary operators by precedence, the conditional, assignment.

An operand that cannot be read is recovered from when an operator stands right
after the place where reading stopped: the missing operand is noted there.
-/
import ElementBuild.Script.Grammar.Primary

namespace ElementBuild
namespace Script
namespace Grammar

open Reader

variable (g : Grammar)

/-- What members and calls are taken of. -/
inductive Base where
  | expr (e : Expr)
  | super (start : Nat)
  | import_ (start : Nat)

namespace Base

/-- Where the base starts. -/
def start : Base → Nat
  | expr e => e.span.start
  | super n => n
  | import_ n => n

/-- The calls within the base. -/
def calls : Base → List ImportCall
  | expr e => e.calls
  | _ => []

/-- The pattern-only properties within the base. -/
def initializers : Base → List Nat
  | expr e => e.initializers
  | _ => []

/-- Whether the base is an optional chain. -/
def isChain : Base → Bool
  | expr e => e.form == .chain || e.form == .chainMember
  | _ => false

end Base

/-- A member of a base, after its calls. -/
def memberOf (base : Base) (optional : Bool) (calls : List ImportCall) : Reader Expr := do
  let form := if optional || base.isChain then .chainMember else .member
  return .leaf ⟨base.start, ← lastStop⟩ form (base.calls ++ calls) base.initializers

/-- Notes a use of `super` where it has no meaning. -/
def checkSuper (ctx : Context) (base : Base) : Reader Unit :=
  match base with
  | .super start => unless ctx.allowSuper do note .superNotAllowed start
  | _ => return

/-- One member access, call or template after a base; nothing if none follows. -/
def subscript (ctx : Context) (noCall : Bool) (base : Base) : Reader (Option Expr) := do
  let optional ← eat .questionDot
  if ← eat .bracketOpen then
    match base with
    | .import_ start => fail .importNotAllowed start
    | _ =>
      let e ← g.expression (inside ctx)
      expect .bracketClose
      checkSuper ctx base
      return some (← memberOf base optional e.calls)
  else if (← at? .parenOpen) && (optional || !noCall) then
    let ofImport := match base with
      | .import_ _ => true
      | _ => false
    let args ← g.arguments ctx ofImport
    let calls := args.flatMap (·.calls)
    let initializers := args.flatMap (·.initializers)
    let stop ← lastStop
    match base with
    | .import_ start =>
      if optional then fail .superOptionalCall (← blame)
      else
        let literal := match args.head? with
          | some e => if e.form == .string then some e.span else none
          | none => none
        return some (.leaf ⟨start, stop⟩ .call (⟨⟨start, stop⟩, literal⟩ :: calls) initializers)
    | .super start =>
      if optional then fail .superOptionalCall (← blame)
      else return some (.leaf ⟨start, stop⟩ .call calls initializers)
    | .expr e =>
      let form := if optional || base.isChain then .chain else .call
      return some (.leaf ⟨e.span.start, stop⟩ form (e.calls ++ calls)
        (e.initializers ++ initializers))
  else if optional && (← at? .backquote) then
    note .templateInChain (← blame)
    let calls ← g.templateLiteral ctx true
    return some (.leaf ⟨base.start, ← lastStop⟩ .chain (base.calls ++ calls) base.initializers)
  else
    let dot ← if optional then pure true else eat .dot
    if dot then
      let isPrivate ← eat .hash
      let nameStart ← here
      let (w, _) ← if isPrivate then privateName else identifierName
      match base with
      | .import_ start =>
        if w == "meta" && !isPrivate then
          return some (.leaf ⟨start, ← lastStop⟩ .other [] [])
        else fail (.unexpected w "meta") nameStart
      | .super _ =>
        checkSuper ctx base
        if isPrivate then note .superPrivateName nameStart
        return some (← memberOf base optional [])
      | .expr _ => return some (← memberOf base optional [])
    else
      match base with
      | .expr e =>
        if ← at? .backquote then
          if base.isChain then note .templateInChain (← blame)
          let calls ← g.templateLiteral ctx true
          return some (.leaf ⟨e.span.start, ← lastStop⟩ .other (e.calls ++ calls) e.initializers)
        else return none
      | .super _ =>
        if noCall then fail .superCallNotAllowed (← blame)
        else fail .superNotAllowed (← blame)
      | .import_ _ =>
        if noCall then fail .importNotAllowed (← blame)
        else unexpected "`.` or `(`"

/-- All member accesses, calls and templates after a base. -/
def subscripts (ctx : Context) (noCall : Bool) (base : Base) : Reader Expr := do
  let base ← loop g.fuel (fun base => do
    match (← g.subscript ctx noCall base) with
    | some e => return (.expr e, true)
    | none => return (base, false)) base
  match base with
  | .expr e => return e
  | base => return .leaf ⟨base.start, ← lastStop⟩ .invalid [] []

/-- What follows the word `import` in an expression. -/
def importExpression (ctx : Context) (start : Nat) (noCall : Bool) : Reader Expr := do
  if ← at? .dot then
    let next ← peek
    if next.token == .word "defer" || next.token == .word "source" then
      bump
      bump
      g.subscripts ctx noCall (.import_ start)
    else g.subscripts ctx noCall (.import_ start)
  else g.subscripts ctx noCall (.import_ start)

/-- A member expression, or a `new` expression with or without arguments. -/
def memberExpression (ctx : Context) : Reader Expr := do
  let start ← here
  if ← eatWord "new" then
    if ← eat .dot then
      if ← eatWord "target" then
        unless ctx.inPlainFunction || ctx.inParameters || ctx.inClass do
          note .newTargetNotAllowed start
        g.subscripts ctx true (.expr (← plain start .other []))
      else unexpected "target"
    else
      let callee ← g.member ctx
      if callee.form == .arrow then return callee
      if callee.form == .chain || callee.form == .chainMember then
        fail .chainAfterNew callee.span.start
      if ← at? .parenOpen then
        let args ← g.arguments ctx false
        let e : Expr := .leaf ⟨start, ← lastStop⟩ .other
          (callee.calls ++ args.flatMap (·.calls))
          (callee.initializers ++ args.flatMap (·.initializers))
        g.subscripts ctx true (.expr e)
      else return .leaf ⟨start, ← lastStop⟩ .newBare callee.calls callee.initializers
  else if ← eatWord "super" then g.subscripts ctx true (.super start)
  else if ← eatWord "import" then g.importExpression ctx start true
  else
    let e ← g.primary ctx
    if e.form == .arrow then return e else g.subscripts ctx true (.expr e)

/-- A left-hand side: members, calls and `new` expressions. -/
def leftHandSideExpression (ctx : Context) : Reader Expr := do
  let start ← here
  if ← eatWord "super" then g.subscripts ctx false (.super start)
  else if ← eatWord "import" then g.importExpression ctx start false
  else
    let e ← g.member ctx
    if e.form == .arrow || e.form == .newBare then return e
    else if ← at? .parenOpen then g.subscripts ctx false (.expr e)
    else return e

/-- Notes a target that no operator may assign to. -/
def checkTarget (e : Expr) : Reader Unit :=
  unless e.form.isSimpleTarget || e.form == .invalid do
    note .invalidAssignmentTarget e.span.start

/-- Passes `++` or `--` if one of them is next. -/
def eatUpdate : Reader Bool := do
  if ← eat .increment then return true else eat .decrement

/-- An `await` expression. -/
def awaitExpression (ctx : Context) : Reader Expr := do
  let start ← here
  expectWord "await"
  if ← at? (.binary .mul) then fail .awaitStar (← blame)
  if !ctx.inAsync && ((← at? .parenClose) || (← at? .bracketClose)) then
    note .reservedAwait start
    plain start (.name "await") []
  else
    if ctx.inFunction && !ctx.inAsync then note .awaitInFunction (← blame)
    if ctx.inParameters && !ctx.inFunction then note .awaitInParameter start
    let e ← g.unary ctx
    return .leaf ⟨start, ← lastStop⟩ .awaiting e.calls e.initializers

/-- Whether a token is a prefix operator other than `++` and `--`. -/
def isPrefixOperator : Token → Bool
  | .word w => w == "delete" || w == "void" || w == "typeof"
  | .punctuator p =>
    match p with
    | .bang => true
    | .tilde => true
    | .binary .add => true
    | .binary .sub => true
    | _ => false
  | _ => false

/-- An operand: prefix and postfix operators around a left-hand side. -/
def unaryExpression (ctx : Context) : Reader Expr := do
  let start ← here
  let t ← token
  if ← eatUpdate then
    let e ← g.unary ctx
    checkTarget e
    return .leaf ⟨start, e.span.stop⟩ .update e.calls e.initializers
  else if isPrefixOperator t then
    bump
    let argStart := (← here) - 1
    let e ← tryCatch (g.unary ctx) fun f => do
      note f.fault f.offset
      return .leaf ⟨argStart, argStart⟩ .invalid [] []
    match t, e.form with
    | .word "delete", .name _ => note .deleteName e.span.start
    | _, _ => pure ()
    return .leaf ⟨start, e.span.stop⟩ .unary e.calls e.initializers
  else if t == .word "await" then g.awaitExpression ctx
  else
    let e ← g.leftHandSide ctx
    if e.form == .arrow then return e
    else if ← afterBreak then return e
    else if ← eatUpdate then
      checkTarget e
      return .leaf ⟨e.span.start, ← lastStop⟩ .update e.calls e.initializers
    else return e

/-- How tightly `in` and `instanceof` bind. -/
def relationPrecedence : Nat := 7

/-- The binary operator that is next: its sign, unless it is a word, and how
tightly it binds. -/
def nextOperator? (ctx : Context) : Reader (Option (Option BinaryOp × Nat)) := do
  match (← whole) with
  | some (.punctuator (.binary op)) => return some (some op, op.precedence)
  | some (.word "in") => return if ctx.includeIn then some (none, relationPrecedence) else none
  | some (.word "instanceof") => return some (none, relationPrecedence)
  | _ => return none

/-- Whether an operand is a logical expression that must not be mixed with
`??`. -/
def isLogical (e : Expr) : Bool := e.form == .binary (some .and) || e.form == .binary (some .or)

/-- The operators that bind tighter than a bound, after a left operand. -/
def operatorsAfter (ctx : Context) (left : Expr) (bound : Nat) : Reader Expr :=
  loop g.fuel (fun left => do
    match (← nextOperator? ctx) with
    | none => return (left, false)
    | some (op, precedence) =>
      if precedence ≤ bound then return (left, false)
      else
        bump
        if op == some .exp && (left.form == .unary || left.form == .awaiting) then
          fail .unaryBeforePower (← blame)
        let first ← g.unary ctx
        let right ← g.operators ctx first (if op == some .exp then precedence - 1 else precedence)
        if op == some .coalesce then
          if isLogical left then note .mixedCoalescing left.span.start
          if isLogical right then note .mixedCoalescing right.span.start
        else if (op == some .or || op == some .and) then
          if left.form == .binary (some .coalesce) then note .mixedCoalescing left.span.start
          if right.form == .binary (some .coalesce) then note .mixedCoalescing right.span.start
        return (.leaf ⟨left.span.start, right.span.stop⟩ (.binary op)
          (left.calls ++ right.calls) (left.initializers ++ right.initializers), true)) left

/-- Operands and binary operators. -/
def binaryExpression (ctx : Context) : Reader Expr := do
  let left ← tryCatch (g.unary ctx) fun f => do
    let missing : Reader Expr := do
      note .expectedExpression (← lastStart)
      return .leaf ⟨f.offset, f.offset⟩ .invalid [] []
    match (← token) with
    | .broken f' =>
      bump
      throw f'
    | .endOfText => throw ⟨.unexpectedEnd, ← lastStop⟩
    | .word "in" => if ctx.includeIn then missing else throw f
    | .word "instanceof" => missing
    | .punctuator (.binary _) => missing
    | _ => throw f
  if left.form == .arrow then return left else g.operators ctx left 0

/-- A conditional expression. -/
def conditionalExpression (ctx : Context) : Reader Expr := do
  let test ← g.binaryExpression ctx
  if test.form == .arrow then return test
  else if ← eat .question then
    let first ← g.assignment (inside ctx)
    expect .colon
    let second ← g.assignment ctx
    return .leaf ⟨test.span.start, ← lastStop⟩ .conditional
      (test.calls ++ first.calls ++ second.calls)
      (test.initializers ++ first.initializers ++ second.initializers)
  else return test

/-- Whether an expression may begin with a token. -/
def startsExpression : Token → Bool
  | .word w =>
    !isReserved w ||
      ["await", "class", "delete", "false", "function", "import", "new", "null", "super", "this",
        "true", "typeof", "void", "yield", "let"].contains w
  | .punctuator p =>
    match p with
    | .bang | .tilde | .parenOpen | .bracketOpen | .braceOpen | .increment | .decrement
    | .backquote | .hash => true
    | .binary .add | .binary .sub => true
    | .binary .div | .assign (some .div) => true
    | .binary .mul => true
    | _ => false
  | .number _ | .bigInteger _ | .string _ _ | .regex _ _ | .template _ => true
  | _ => false

/-- A `yield` expression. -/
def yieldExpression (ctx : Context) : Reader Expr := do
  let start ← here
  expectWord "yield"
  if ctx.inParameters then fail .yieldInParameter (← lastStart)
  if (← atStatementEnd) || !startsExpression (← token) then plain start .other []
  else
    let _ ← eat (.binary .mul)
    let e ← g.assignment ctx
    return .leaf ⟨start, ← lastStop⟩ .other e.calls e.initializers

/-- An expression without commas. -/
def assignmentExpression (ctx : Context) : Reader Expr := do
  if ctx.inGenerator && (← word? "yield") then g.yieldExpression ctx
  else
    let t ← need
    let start ← here
    let mayBeArrow := match t with
      | .word w => !isReserved w || w == "yield"
      | .punctuator .parenOpen => true
      | _ => false
    modify fun s => { s with arrowStart := if mayBeArrow then some start else none }
    let left ← g.conditionalExpression ctx
    match left.form with
    | .arrow | .conditional | .binary _ | .unary | .update => return left
    | _ =>
      match (← whole) with
      | some (.punctuator (.assign op)) =>
        let isPlain := op.isNone
        if isPlain then adopt left.asTarget
        else unless left.form.isSimpleTarget do note .invalidAssignmentTarget left.span.start
        bump
        let right ← g.assignment ctx
        let isPattern := isPlain && (left.form == .array || left.form == .object)
        return {
          span := ⟨start, ← lastStop⟩, form := .assignment
          calls := left.calls ++ right.calls
          initializers := (if isPattern then [] else left.initializers) ++ right.initializers
          asTarget := if isPlain then {} else { noted := [⟨.invalidAssignmentTarget, start⟩] }
          asBinding :=
            if isPlain then left.asBinding else { fatal := some ⟨.notPattern, start⟩ } }
      | _ => return left

end Grammar
end Script
end ElementBuild
