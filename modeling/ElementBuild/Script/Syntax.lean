/-
# What reading a module yields

Modules are recognised, not rebuilt: an expression is summarised by its form,
which decides what may follow it, by how well it would serve as a pattern, and by
the `import()` calls within it.  Of the items of a module the declarations that
name other modules are kept, and what the module exports by default.

The calls of a node stand in the order in which a walk over the syntax tree meets
them: a call before those in its arguments, the body of a class before its
heritage, the test of a `do` loop before its body.
-/
import ElementBuild.Script.Token

namespace ElementBuild
namespace Script

/-- A stretch of a text, in bytes. -/
structure Span where
  start : Nat
  stop : Nat
  deriving DecidableEq, Repr, Inhabited

/-- An `import()` call, and its first argument if that is a string literal. -/
structure ImportCall where
  span : Span
  literal : Option Span
  deriving DecidableEq, Repr

/-- The forms of expressions that the grammar tells apart. -/
inductive Form where
  | name (word : String)
  | string
  | member
  /-- A member of an optional chain. -/
  | chainMember
  /-- An optional chain that is not a plain member of one. -/
  | chain
  | call
  | newBare
  | array
  | object
  | assignment
  | paren (inner : Form)
  | arrow
  | unary
  | awaiting
  | update
  | binary (op : Option BinaryOp)
  | conditional
  | invalid
  | other
  deriving DecidableEq, Repr

/-- Faults that an expression has when it is taken as a pattern: those that are
noted, and one that stops. -/
structure Fitness where
  noted : List Located := []
  fatal : Option Located := none
  deriving Repr

/-- Faults of one pattern and then of another; nothing is noted after a stop. -/
def Fitness.and (a b : Fitness) : Fitness :=
  match a.fatal with
  | some _ => a
  | none => ⟨a.noted ++ b.noted, b.fatal⟩

/-- An expression that has been read. -/
structure Expr where
  span : Span
  form : Form
  calls : List ImportCall := []
  /-- As a target of an assignment. -/
  asTarget : Fitness := {}
  /-- As a parameter of an arrow function. -/
  asBinding : Fitness := {}
  /-- Properties of the form `a = 1`, which only a pattern may have. -/
  initializers : List Nat := []
  deriving Repr

namespace Form

/-- Whether an expression of this form may be assigned to by any operator. -/
def isSimpleTarget : Form → Bool
  | name w => w != "eval" && w != "arguments"
  | member => true
  | chainMember => false
  | paren inner => inner.isSimpleTarget
  | _ => false

end Form

namespace Expr

/-- An expression that is no pattern by itself: a simple target may be assigned
to, a name may be bound. -/
def leaf (span : Span) (form : Form) (calls : List ImportCall) (initializers : List Nat) : Expr :=
  { span, form, calls, initializers
    asTarget :=
      if form.isSimpleTarget || form == .invalid then {}
      else { noted := [⟨.invalidAssignmentTarget, span.start⟩] }
    asBinding :=
      match form with
      | .name w =>
        if w == "eval" || w == "arguments" then { noted := [⟨.reservedBinding, span.start⟩] } else {}
      | .invalid => {}
      | _ => { fatal := some ⟨.notPattern, span.start⟩ } }

end Expr

/-- A pattern in a declaration or a parameter list. -/
structure Pattern where
  start : Nat
  /-- The pattern is a single name. -/
  isName : Bool
  calls : List ImportCall
  deriving Repr

/-- A name given to what is imported: which of the three forms it has. -/
inductive ImportForm where
  | default
  | namespace
  | named
  deriving DecidableEq, Repr

/-- A binding that an import declares. -/
structure ImportSpecifier where
  form : ImportForm
  binding : String
  deriving DecidableEq, Repr

/-- A name in an export clause: an identifier, or a string literal. -/
inductive ExportName where
  | identifier (word : String)
  | string (literal : Span)
  deriving DecidableEq, Repr

/-- One entry of an export clause: the name that is exported and the name it is
exported under, if that differs. -/
structure ExportSpecifier where
  source : ExportName
  exported : Option ExportName
  deriving DecidableEq, Repr

/-- An item of a module. -/
inductive Item where
  | importFrom (span : Span) (specifiers : List ImportSpecifier) (source : Span)
  | exportFrom (span : Span) (specifiers : List ExportSpecifier) (source : Span)
  | exportNamespace (span : Span) (name : ExportName) (source : Span)
  | exportAll (span : Span) (source : Span)
  /-- Bindings of the module that it exports. -/
  | exportList (specifiers : List ExportSpecifier)
  /-- A default export, with the name of the function, class or binding. -/
  | exportDefault (binding : Option String) (calls : List ImportCall)
  | statement (calls : List ImportCall)
  deriving Repr

/-- The calls within an item. -/
def Item.calls : Item → List ImportCall
  | .exportDefault _ calls => calls
  | .statement calls => calls
  | _ => []

/-- A module that has been read. -/
structure Module where
  items : List Item
  deriving Repr

/-- All `import()` calls of a module. -/
def Module.calls (m : Module) : List ImportCall := m.items.flatMap Item.calls

end Script
end ElementBuild
