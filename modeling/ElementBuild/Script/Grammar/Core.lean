/-
# Tying the grammar's knot
-/
import ElementBuild.Script.Grammar.Statement

namespace ElementBuild
namespace Script

/-- The grammar for inputs nested up to a depth.  Each production of level
`n + 1` is made from level `n`; level zero reads nothing. -/
def grammar : Nat → Grammar
  | 0 =>
    { fuel := 0
      assignment := fun _ => Reader.fail .unexpectedEnd 0
      unary := fun _ => Reader.fail .unexpectedEnd 0
      leftHandSide := fun _ => Reader.fail .unexpectedEnd 0
      member := fun _ => Reader.fail .unexpectedEnd 0
      operators := fun _ _ _ => Reader.fail .unexpectedEnd 0
      binding := fun _ => Reader.fail .unexpectedEnd 0
      statement := fun _ _ => Reader.fail .unexpectedEnd 0 }
  | n + 1 =>
    { fuel := n
      assignment := fun ctx s => (grammar n).assignmentExpression ctx s
      unary := fun ctx s => (grammar n).unaryExpression ctx s
      leftHandSide := fun ctx s => (grammar n).leftHandSideExpression ctx s
      member := fun ctx s => (grammar n).memberExpression ctx s
      operators := fun ctx e bound s => (grammar n).operatorsAfter ctx e bound s
      binding := fun ctx s => (grammar n).bindingTarget ctx s
      statement := fun ctx declarations s =>
        (grammar n).statementOrDeclaration ctx declarations s }

end Script
end ElementBuild
